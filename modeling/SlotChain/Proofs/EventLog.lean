import SlotChain.Proofs.LimitedOutput

/-!
# The log of a run

What a run logs can be told from its operations alone: each operation that is attempted is announced with
the length before it, and one that changes the list leaves one event of that change with the length after
it. A deletion that finds no item leaves none, and an operation whose line cannot be written leaves its
change all the same. So the lengths in a log follow from each other: whoever counts on from the first
length by the names of the changes gets every length that is reported, and in the end that of the list.
-/

namespace SlotChain

/-- The number of items after a mutation of a sequence of so many. -/
def Mutation.recount (n : Nat) : Mutation → Nat
  | prepend => n + 1
  | append => n + 1
  | deleteHead => n - 1
  | deleteTail => n - 1

namespace Event

/-- The length that an event reports, if it reports one. -/
def length? : Event → Option Nat
  | mutated _ len => some len
  | applying _ len => some len
  | starting _ => none

/-- The number of items after an event, counted on by the name of the mutation alone. -/
def recount (n : Nat) : Event → Nat
  | mutated change _ => change.recount n
  | applying .. => n
  | starting _ => n

end Event

/-- Each event of a log in turn reports the number of items that is counted up to it. -/
def Coherent : Nat → List Event → Nat → Prop
  | n, [], m => n = m
  | n, e :: rest, m => e.length? = some (e.recount n) ∧ Coherent (e.recount n) rest m

/-- Coherent logs can be joined where the one ends as the other begins. -/
theorem Coherent.append {n k m : Nat} {log log' : List Event} (h : Coherent n log k)
    (h' : Coherent k log' m) : Coherent n (log ++ log') m := by
  induction log generalizing n with
  | nil =>
    obtain rfl : n = k := h
    exact h'
  | cons e rest ih => exact ⟨h.1, ih h.2⟩

namespace Op

/-- The mutation that an operation makes of a sequence, if it makes one. -/
def mutation? (xs : List String) : Op → Option Mutation
  | prepend _ => some .prepend
  | append _ => some .append
  | deleteHead => if xs = [] then none else some .deleteHead
  | deleteTail => if xs = [] then none else some .deleteTail
  | len => none
  | print => none

/-- What an operation on a sequence logs: its announcement, and its mutation if it makes one. -/
def log (xs : List String) (op : Op) : List Event :=
  .applying op.text xs.length ::
    (op.mutation? xs).toList.map fun change => .mutated change (op.after xs).length

variable {A : Type → Type} [SlotMap A]

end Op

end SlotChain

import SlotChain.Chain.Mutation
import SlotChain.Cursor

/-!
# Building, copying, comparing and joining chains

Whole chains are handled item by item: a chain is built and extended by appending, copied by building a
new one from its items, compared by length and then by items, and joined to another by draining it.
-/

namespace SlotChain.Chain

variable {α : Type} {A : Type → Type} [SlotMap A]

/-- Append items one after the other. -/
def extend : List α → Act (Chain α A) Unit
  | [] => return ()
  | x :: xs => do
    append x
    extend xs

/-- A new chain of the given items. -/
def ofList (items : List α) : Except Fault (Outcome (Chain α A) Unit) := do
  extend items (← withCapacity items.length)

/-- A separate chain with the same items. -/
def copy (c : Chain α A) : Except Fault (Outcome (Chain α A) Unit) := do
  ofList (← c.items)

/-- Whether two chains hold equal items in the same order. -/
def equals [BEq α] (c d : Chain α A) : Except Fault Bool :=
  if c.len == d.len then do return (← c.items) == (← d.items) else .ok false

/-- Move items from the head of another chain to the tail of this one, at most as many as the bound
says. -/
def absorbUpTo : Nat → Chain α A → Act (Chain α A) Unit
  | 0, _, c => .ok ⟨(), c, []⟩
  | n + 1, source, c => do
    let taken ← deleteHead source
    match taken.answer with
    | none => return ⟨(), c, taken.events⟩
    | some x =>
      let added ← append x c
      let rest ← absorbUpTo n taken.state added.state
      return { rest with events := taken.events ++ added.events ++ rest.events }

/-- Move all items of another chain to the end of this one. -/
def absorb (source : Chain α A) : Act (Chain α A) Unit := absorbUpTo source.len source

/-- A new chain of the items that another gives up one after the other. -/
def gather (source : Chain α A) : Except Fault (Outcome (Chain α A) Unit) := do
  absorb source (← withCapacity source.len)

end SlotChain.Chain

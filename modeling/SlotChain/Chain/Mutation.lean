import SlotChain.Act
import SlotChain.Chain.Audit
import SlotChain.Chain.Splice

/-!
# Mutations at the two ends

Items enter and leave a chain at its head and at its tail. Each mutation emits one event with the
length it leaves, and is followed by an audit of the whole chain. Deleting from an empty chain is no
mutation: it answers that there is no item, and changes and emits nothing.
-/

namespace SlotChain.Chain

variable {α : Type} {A : Type → Type} [SlotMap A]

/-- Conclude a mutation: emit its event and audit the chain. -/
def conclude {β : Type} (change : Mutation) (answer : β) (c : Chain α A) :
    Except Fault (Outcome (Chain α A) β) :=
  c.audit.map fun _ => ⟨answer, c, [.mutated change c.len]⟩

/-- Insert an item as the new head. -/
def prepend (item : α) : Act (Chain α A) Unit := fun c => do
  let (t, c) ← c.store item
  let c ← c.linkBetween t none c.head
  let c ← { c with head := some t, tail := c.tail.or (some t) }.grow
  c.conclude .prepend ()

/-- Insert an item as the new tail. -/
def append (item : α) : Act (Chain α A) Unit := fun c => do
  let (t, c) ← c.store item
  let c ← c.linkBetween t c.tail none
  let c ← { c with tail := some t, head := c.head.or (some t) }.grow
  c.conclude .append ()

/-- Remove the cell at one end, if there is one, and answer its item. -/
def deleteAt (change : Mutation) (c : Chain α A) :
    Option Token → Except Fault (Outcome (Chain α A) (Option α))
  | none => .ok ⟨none, c, []⟩
  | some t => do
    let (item, c) ← c.unlink t
    c.conclude change (some item)

/-- Remove the head and answer its item, or nothing if the chain is empty. -/
def deleteHead : Act (Chain α A) (Option α) := fun c => c.deleteAt .deleteHead c.head

/-- Remove the tail and answer its item, or nothing if the chain is empty. -/
def deleteTail : Act (Chain α A) (Option α) := fun c => c.deleteAt .deleteTail c.tail

end SlotChain.Chain

import SlotChain.Chain.Mutation
import SlotChain.TwoEnded

/-!
# Draining a chain

A chain that is given up is drained from both ends: taking an item from the front deletes the head,
taking one from the back deletes the tail. What is never taken is dropped in silence.
-/

namespace SlotChain.Chain

variable {α : Type} {A : Type → Type} [SlotMap A]

/-- A chain as the two-ended source of the items that it still holds. -/
def drain : TwoEnded (Chain α A) α := ⟨deleteHead, deleteTail, Chain.len⟩

end SlotChain.Chain

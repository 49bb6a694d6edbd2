import SlotChain.Arena
import SlotChain.Token

/-!
# Chains of cells

A chain keeps its items in cells of an arena. Each cell names its two neighbours by token, and the
chain names its two ends and counts its cells. Links are names, never owners: the arena owns every
cell, and a link is good only as long as the slot it names is occupied.
-/

namespace SlotChain

/-- One item together with the names of its neighbours. -/
structure Cell (α : Type) where
  /-- The neighbour towards the head. -/
  prev : Option Token
  /-- The neighbour towards the tail. -/
  next : Option Token
  /-- The item that the cell holds. -/
  item : α

/-- A doubly linked list whose cells live in an arena, which any kind of slot map can be. -/
structure Chain (α : Type) (A : Type → Type := Arena) where
  /-- The first cell. -/
  head : Option Token
  /-- The last cell. -/
  tail : Option Token
  /-- The owner of all cells. -/
  arena : A (Cell α)
  /-- The number of cells. -/
  len : Nat

namespace Chain

variable {α : Type} {A : Type → Type} [SlotMap A]

/-- The chain without items. -/
def empty : Chain α A := ⟨none, none, SlotMap.empty, 0⟩

/-- An empty chain whose arena has room for a number of cells up front. The reservation is not visible
in any answer; only one beyond the room of an arena is, as a fault. -/
def withCapacity (capacity : Nat) : Except Fault (Chain α A) :=
  if capacity ≤ SlotMap.room A then .ok empty else .error .capacityOverflow

/-- Whether a chain has no items. -/
def isEmpty (c : Chain α A) : Bool := c.len == 0

/-- The cell that a token names. -/
def cell (c : Chain α A) (t : Token) : Except Fault (Cell α) :=
  match SlotMap.get? c.arena t.key with
  | some cell => .ok cell
  | none => .error .staleLink

/-- The item at one end, given the token of that end. -/
def itemAt (c : Chain α A) : Option Token → Except Fault (Option α)
  | none => .ok none
  | some t => (c.cell t).map fun cell => some cell.item

/-- The first item. -/
def front (c : Chain α A) : Except Fault (Option α) := c.itemAt c.head

/-- The last item. -/
def back (c : Chain α A) : Except Fault (Option α) := c.itemAt c.tail

/-- Drop all items at once. -/
def clear (c : Chain α A) : Chain α A := ⟨none, none, SlotMap.clear c.arena, 0⟩

end Chain

end SlotChain

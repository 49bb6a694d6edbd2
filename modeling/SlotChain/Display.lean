import SlotChain.Cursor
import SlotChain.Item

/-!
# Displaying a chain

A chain is displayed as its items from head to tail between two markers for the absent links at its
ends. The text is made of pieces, because an output that runs full in the middle of it keeps the
pieces before.
-/

namespace SlotChain.Display

/-- The marker of an absent link at either end. -/
def null : String := "NULL"

/-- The pieces of the display text of some items, in the order in which they are written. -/
def pieces : List String → List String
  | [] => [null]
  | x :: xs => null :: " <- " :: (x :: xs).flatMap (fun y => [y, " -> "]) ++ [null]

/-- The display text of some items. -/
def render (items : List String) : String := String.join (pieces items)

end SlotChain.Display

namespace SlotChain.Chain

variable {α : Type} {A : Type → Type} [SlotMap A] [Item α]

/-- The pieces of the display text of a chain. -/
def displayPieces (c : Chain α A) : Except Fault (List String) :=
  c.items.map fun xs => Display.pieces (xs.map Item.text)

/-- The display text of a chain. -/
def display (c : Chain α A) : Except Fault String :=
  c.items.map fun xs => Display.render (xs.map Item.text)

/-- The shape of a chain: the list of its items. -/
def shape (c : Chain α A) : Except Fault Text.Shape :=
  c.items.map fun xs => .list (xs.map Item.shape)

end SlotChain.Chain

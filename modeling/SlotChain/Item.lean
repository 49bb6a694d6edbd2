import SlotChain.Text.Decimal
import SlotChain.Text.Shape

/-!
# Items

A chain holds items of one type. To be shown, an item needs a plain text for display and a shape for
inspection; to be compared, it needs an equality test.
-/

namespace SlotChain

/-- A type whose values can be held, shown and compared in a chain. -/
class Item (α : Type) extends BEq α where
  /-- The plain text of an item. -/
  text : α → String
  /-- The shape of an item for inspection. -/
  shape : α → Text.Shape

instance : Item String where
  text s := s
  shape := Text.Shape.string

instance : Item Int where
  text := Text.integer
  shape n := .atom (Text.integer n)

end SlotChain

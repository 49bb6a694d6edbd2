import SlotChain.Arena

/-!
# Slots are chosen blindly

Some slot maps do not look at their entries when they choose a key. Which key comes next then depends only
on the order in which keys were chosen and given up before. Two such maps of the same layout, whatever is
in them, go on choosing the same keys. An arena of reusable slots is of this kind.
-/

namespace SlotChain

/-- A kind of slot maps that choose keys without looking at the entries. -/
class BlindSlotMap (A : Type → Type) [SlotMap A] where
  /-- All that the choice of keys depends on. -/
  Layout : Type
  /-- The layout of a slot map. -/
  layout {α : Type} (a : A α) : Layout
  /-- Maps of one layout choose the same key, whatever is inserted, and have one layout afterwards; or
  both refuse. -/
  layout_insert {α : Type} {a b : A α} (x y : α) (h : layout a = layout b) :
    (SlotMap.insert a x).map (Prod.map id layout) = (SlotMap.insert b y).map (Prod.map id layout)
  /-- Maps of one layout have one layout after the same key is erased. -/
  layout_erase {α : Type} {a b : A α} (k : Nat) (h : layout a = layout b) :
    layout (SlotMap.erase a k) = layout (SlotMap.erase b k)
  /-- Changing an entry keeps the layout. -/
  layout_modify {α : Type} (a : A α) (k : Nat) (f : α → α) : layout (SlotMap.modify a k f) = layout a
  /-- Maps of one layout have one layout after they are cleared. -/
  layout_clear {α : Type} {a b : A α} (h : layout a = layout b) :
    layout (SlotMap.clear a) = layout (SlotMap.clear b)

namespace Arena

/-- What can be told of an arena without looking at its entries. -/
structure Layout where
  /-- The vacant slots, the one freed last in front. -/
  free : List Nat
  /-- Which slots are occupied. -/
  occupied : Array Bool

/-- The slot that is filled next, and the layout with that slot filled. -/
def Layout.fill (l : Layout) : Option (Nat × Layout) :=
  match l.free with
  | [] =>
    if l.occupied.size < slotLimit then some (l.occupied.size, ⟨[], l.occupied.push true⟩) else none
  | k :: rest => some (k, ⟨rest, l.occupied.setIfInBounds k true⟩)

/-- The layout with a slot vacated. -/
def Layout.vacate (l : Layout) (k : Nat) : Layout :=
  if l.occupied[k]? = some true then ⟨k :: l.free, l.occupied.setIfInBounds k false⟩ else l

variable {α : Type}

/-- The layout of an arena. -/
def layout (a : Arena α) : Layout := ⟨a.free, a.slots.map Option.isSome⟩

/-- The layout tells whether a slot is occupied. -/
theorem isSome_get?_iff (a : Arena α) (k : Nat) :
    (a.get? k).isSome ↔ a.layout.occupied[k]? = some true := by
  rw [get?, layout, Array.getElem?_map]
  cases a.slots[k]? <;> simp

/-- The layout alone decides which slot an insertion fills. -/
theorem map_layout_insert (a : Arena α) (x : α) :
    (a.insert x).map (Prod.map id layout) = a.layout.fill := by
  unfold insert
  split
  · rename_i hfree
    simp only [layout, Layout.fill, hfree, Array.size_map]
    split
    · simp only [Option.map_some, Prod.map_apply, id_eq, layout, Array.map_push, Option.isSome_some]
    · rfl
  · rename_i k rest hfree
    simp only [layout, Layout.fill, hfree, Option.map_some, Prod.map_apply, id_eq,
      Array.map_setIfInBounds, Option.isSome_some]

/-- An erasure vacates the slot. -/
theorem layout_erase (a : Arena α) (k : Nat) : (a.erase k).layout = a.layout.vacate k := by
  have hslot := a.isSome_get?_iff k
  unfold erase Layout.vacate
  split
  · rename_i h
    rw [if_pos (hslot.1 h)]
    simp only [layout, Array.map_setIfInBounds, Option.isSome_none]
  · rename_i h
    rw [if_neg fun hk => h (hslot.2 hk)]

/-- A change in place leaves the layout as it is. -/
theorem layout_modify (a : Arena α) (k : Nat) (f : α → α) : (a.modify k f).layout = a.layout := by
  simp only [layout, modify, Layout.mk.injEq, true_and]
  ext i hi hi'
  · simp only [Array.size_map, Array.size_modify]
  · simp only [Array.getElem_map, Array.getElem_modify]
    split
    · exact Option.isSome_map
    · rfl

instance : BlindSlotMap Arena where
  Layout := Layout
  layout := layout
  layout_insert {_ a b} x y h := by
    calc (a.insert x).map (Prod.map id layout) = a.layout.fill := map_layout_insert a x
      _ = b.layout.fill := by rw [h]
      _ = (b.insert y).map (Prod.map id layout) := (map_layout_insert b y).symm
  layout_erase {_ a b} k h := by
    calc (a.erase k).layout = a.layout.vacate k := layout_erase a k
      _ = b.layout.vacate k := by rw [h]
      _ = (b.erase k).layout := (layout_erase b k).symm
  layout_modify := layout_modify
  layout_clear _ := rfl

end Arena

end SlotChain

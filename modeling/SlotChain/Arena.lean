import SlotChain.SlotMap

/-!
# Arena of reusable slots

An arena is a slot map with numbered slots. Inserting fills the slot freed last, or a new one behind all
others when none is free; removing frees exactly the slot it names. A reader of the chain needs to know
only that this meets the laws of a slot map.
-/

namespace SlotChain

/-- The number of slots that an arena can have at most, one less than two to the power of 60. -/
def Arena.slotLimit : Nat := 1152921504606846975

/-- Slots numbered from zero, each vacant or holding one entry. -/
structure Arena (α : Type) where
  /-- Every slot handed out so far, `none` where it is vacant again. -/
  slots : Array (Option α)
  /-- The vacant slots, the one freed last in front. -/
  free : List Nat
  /-- Exactly the vacant slots are on offer. -/
  free_iff : ∀ k, k ∈ free ↔ slots[k]? = some none
  /-- No slot is on offer twice. -/
  free_nodup : free.Nodup
  /-- There are never too many slots. -/
  size_le : slots.size ≤ Arena.slotLimit

namespace Arena

variable {α : Type}

/-- The arena without any slot. -/
def empty : Arena α where
  slots := #[]
  free := []
  free_iff := by simp
  free_nodup := List.nodup_nil
  size_le := Nat.zero_le _

/-- The entry under a key, if that slot is occupied. -/
def get? (a : Arena α) (k : Nat) : Option α := a.slots[k]?.join

/-- The occupied keys in ascending order. -/
def keys (a : Arena α) : List Nat :=
  (List.range a.slots.size).filter fun k => (a.get? k).isSome

/-- The number of occupied slots. -/
def size (a : Arena α) : Nat := a.slots.countP Option.isSome

/-- Store an entry in the slot freed last, or in a new one if there is none. -/
def insert (a : Arena α) (x : α) : Option (Nat × Arena α) :=
  match h : a.free with
  | [] =>
    if hs : a.slots.size < slotLimit then
      some (a.slots.size,
        { slots := a.slots.push (some x)
          free := []
          free_iff := by
            intro k
            have hk := a.free_iff k
            simp only [h, List.not_mem_nil, false_iff] at hk ⊢
            rw [Array.getElem?_push]
            split
            · simp
            · exact hk
          free_nodup := List.nodup_nil
          size_le := by
            rw [Array.size_push]
            exact hs })
    else none
  | k :: rest =>
    some (k,
      { slots := a.slots.setIfInBounds k (some x)
        free := rest
        free_iff := by
          intro j
          have hj := a.free_iff j
          have hn := a.free_nodup
          rw [h, List.nodup_cons] at hn
          rw [h, List.mem_cons] at hj
          by_cases e : k = j
          · subst e
            simp only [hn.1, false_iff, Array.getElem?_setIfInBounds_self]
            split <;> simp
          · rw [Array.getElem?_setIfInBounds_ne e, ← hj]
            simp [Ne.symm e]
        free_nodup := by
          have hn := a.free_nodup
          rw [h, List.nodup_cons] at hn
          exact hn.2
        size_le := by
          rw [Array.size_setIfInBounds]
          exact a.size_le })

/-- Vacate a slot; a key that holds no entry changes nothing. -/
def erase (a : Arena α) (k : Nat) : Arena α :=
  if h : (a.get? k).isSome then
    { slots := a.slots.setIfInBounds k none
      free := k :: a.free
      free_iff := by
        intro j
        have hk : k < a.slots.size := by
          apply Decidable.byContradiction
          intro hge
          have : a.slots[k]? = none := Array.getElem?_eq_none (by omega)
          simp [get?, this] at h
        by_cases e : k = j
        · subst e
          simp [hk]
        · rw [Array.getElem?_setIfInBounds_ne e, List.mem_cons, ← a.free_iff j]
          simp [Ne.symm e]
      free_nodup := by
        refine List.nodup_cons.2 ⟨fun hk => ?_, a.free_nodup⟩
        have := (a.free_iff k).1 hk
        simp [get?, this] at h
      size_le := by
        rw [Array.size_setIfInBounds]
        exact a.size_le }
  else a

/-- Change the entry under a key in place; a key that holds no entry changes nothing. -/
def modify (a : Arena α) (k : Nat) (f : α → α) : Arena α where
  slots := a.slots.modify k (Option.map f)
  free := a.free
  free_iff := by
    intro j
    rw [a.free_iff j, Array.getElem?_modify]
    split
    · simp
    · rfl
  free_nodup := a.free_nodup
  size_le := by
    rw [Array.size_modify]
    exact a.size_le

/-- Remove every entry. -/
def clear (_ : Arena α) : Arena α := empty

@[simp] theorem get?_empty (k : Nat) : (empty : Arena α).get? k = none := by
  simp [get?, empty]

@[simp] theorem get?_clear (a : Arena α) (k : Nat) : a.clear.get? k = none :=
  get?_empty k

/-- A key behind all slots holds no entry. -/
theorem get?_of_size_le {a : Arena α} {k : Nat} (h : a.slots.size ≤ k) : a.get? k = none := by
  simp [get?, Array.getElem?_eq_none h]

/-- The keys list exactly the occupied slots. -/
theorem mem_keys (a : Arena α) (k : Nat) : k ∈ a.keys ↔ (a.get? k).isSome := by
  simp only [keys, List.mem_filter, List.mem_range, and_iff_right_iff_imp]
  intro h
  apply Decidable.byContradiction
  intro hge
  simp [get?_of_size_le (Nat.le_of_not_lt hge)] at h

theorem nodup_keys (a : Arena α) : a.keys.Nodup := List.nodup_range.filter _

theorem countP_isSome_eq (slots : List (Option α)) :
    slots.countP Option.isSome =
      (List.range slots.length).countP fun k => slots[k]?.join.isSome := by
  induction slots with
  | nil => rfl
  | cons slot rest ih =>
    simp only [List.countP_cons, List.length_cons, List.range_succ_eq_map, List.countP_map, ih]
    rfl

/-- The size counts the occupied keys. -/
theorem size_eq (a : Arena α) : a.size = a.keys.length := by
  have h := countP_isSome_eq a.slots.toList
  rw [Array.countP_toList, Array.length_toList] at h
  rw [size, h, keys, ← List.countP_eq_length_filter]
  simp only [get?, Array.getElem?_toList]

/-- Without a vacant slot, every slot counts. -/
theorem size_of_free_nil {a : Arena α} (h : a.free = []) : a.size = a.slots.size := by
  rw [size, Array.countP_eq_size]
  intro slot hslot
  obtain ⟨k, hk⟩ := Array.getElem?_of_mem hslot
  cases slot with
  | some x => rfl
  | none =>
    have hfree := (a.free_iff k).2 hk
    rw [h] at hfree
    cases hfree

/-- An entry is refused only if the slots are used up. -/
theorem insert_isSome (a : Arena α) (x : α) (h : a.size < slotLimit) : (a.insert x).isSome := by
  unfold insert
  split
  · rename_i hfree
    rw [size_of_free_nil hfree] at h
    rw [dif_pos h]
    rfl
  · rfl

/-- Whatever an insertion does, it names a vacant key within the limit and fills that slot alone. -/
theorem insert_spec {a b : Arena α} {x : α} {k : Nat} (h : a.insert x = some (k, b)) :
    a.get? k = none ∧ k < slotLimit ∧ ∀ j, b.get? j = if j = k then some x else a.get? j := by
  unfold insert at h
  split at h
  · split at h
    · rename_i hs
      cases h
      refine ⟨get?_of_size_le (Nat.le_refl _), hs, fun j => ?_⟩
      simp only [get?, Array.getElem?_push]
      split <;> simp
    · cases h
  · rename_i i rest hfree
    cases h
    have hi := (a.free_iff k).1 (by simp [hfree])
    have hk : k < a.slots.size := (Array.getElem?_eq_some_iff.1 hi).1
    refine ⟨by simp [get?, hi], Nat.lt_of_lt_of_le hk a.size_le, fun j => ?_⟩
    by_cases e : j = k
    · subst e
      simp [get?, hk]
    · simp [get?, Array.getElem?_setIfInBounds_ne (Ne.symm e), e]

/-- Erasing vacates exactly the named slot. -/
theorem get?_erase (a : Arena α) (j k : Nat) :
    (a.erase j).get? k = if k = j then none else a.get? k := by
  unfold erase
  split <;> rename_i h
  · by_cases e : k = j
    · subst e
      simp only [get?, ↓reduceIte]
      rw [Array.getElem?_setIfInBounds_self]
      split <;> rfl
    · simp [get?, Array.getElem?_setIfInBounds_ne (Ne.symm e), e]
  · split
    · rename_i e
      subst e
      simpa using h
    · rfl

/-- Modifying changes only the entry under the named key. -/
theorem get?_modify (a : Arena α) (j k : Nat) (f : α → α) :
    (a.modify j f).get? k = if k = j then (a.get? k).map f else a.get? k := by
  simp only [modify, get?, Array.getElem?_modify]
  by_cases e : j = k
  · subst e
    cases a.slots[j]? <;> simp
  · simp [e, Ne.symm e]

@[default_instance]
instance : SlotMap Arena where
  room := slotLimit
  empty := empty
  get? := get?
  keys := keys
  size := size
  insert := insert
  erase := erase
  modify := modify
  clear := clear
  get?_empty := get?_empty
  mem_keys := mem_keys
  nodup_keys := nodup_keys
  size_eq := size_eq
  insert_isSome := insert_isSome
  get?_of_insert h := (insert_spec h).1
  key_lt_of_insert h := Nat.lt_of_le_of_lt (insert_spec h).2.1 (by decide)
  get?_insert h := (insert_spec h).2.2
  get?_erase := get?_erase
  get?_modify a k f j := get?_modify a k j f
  get?_clear := get?_clear

end Arena

end SlotChain

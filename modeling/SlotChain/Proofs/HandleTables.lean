import SlotChain.Handles
import Mathlib.Data.Finset.Card
import Mathlib.Data.Finset.Dedup

/-!
# The tables of handles and lists

What the parts of a step with a handle do to the two tables. Handles are bound and given up in one of
them, lists are put in, counted up and down and replaced in the other. The handles that denote a list are
the keys under which its number stands, and there is one more or one less of them as a handle is bound or
given up.
-/

namespace SlotChain

/-! ### The keys of an entry -/

namespace Table

variable {κ β : Type} [DecidableEq κ]

/-- Entering something under a key changes what is found there. -/
theorem find?_put_eq_update (t : Table κ β) (k : κ) (b : β) :
    (t.put k b).find? = Function.update t.find? k (some b) := by
  funext j
  rw [find?_put, Function.update_apply]

/-- Erasing a key changes what is found there. -/
theorem find?_erase_eq_update (t : Table κ β) (k : κ) :
    (t.erase k).find? = Function.update t.find? k none := by
  funext j
  rw [find?_erase, Function.update_apply]

variable [DecidableEq β]

/-- The keys under which something stands in a table. -/
def keysOf (t : Table κ β) (b : β) : Finset κ :=
  (t.entries.map Prod.fst).toFinset.filter fun k => t.find? k = some b

theorem mem_keysOf {t : Table κ β} {b : β} {k : κ} : k ∈ t.keysOf b ↔ t.find? k = some b := by
  rw [keysOf, Finset.mem_filter]
  refine ⟨And.right, fun h => ⟨?_, h⟩⟩
  obtain ⟨e, he, -⟩ := Option.map_eq_some_iff.1 h
  have hkey := List.find?_some he
  rw [decide_eq_true_eq] at hkey
  rw [List.mem_toFinset, ← hkey]
  exact List.mem_map_of_mem (List.mem_of_find?_eq_some he)

theorem keysOf_erase (t : Table κ β) (k : κ) (b : β) :
    (t.erase k).keysOf b = (t.keysOf b).erase k := by
  ext j
  rw [mem_keysOf, Finset.mem_erase, mem_keysOf, find?_erase]
  by_cases hj : j = k
  · rw [if_pos hj]
    exact iff_of_false (Option.some_ne_none b).symm fun hmem => hmem.1 hj
  · rw [if_neg hj, and_iff_right hj]

theorem keysOf_put (t : Table κ β) (k : κ) (b c : β) :
    (t.put k b).keysOf c =
      if b = c then insert k ((t.keysOf c).erase k) else (t.keysOf c).erase k := by
  ext j
  rw [mem_keysOf, find?_put]
  by_cases hj : j = k
  · subst hj
    rw [if_pos rfl, Option.some.injEq]
    split
    · rename_i hbc
      exact iff_of_true hbc (Finset.mem_insert_self j _)
    · rename_i hbc
      exact iff_of_false hbc (Finset.notMem_erase j _)
  · have herase : j ∈ (t.keysOf c).erase k ↔ t.find? j = some c := by
      rw [Finset.mem_erase, and_iff_right hj, mem_keysOf]
    rw [if_neg hj]
    split
    · rw [Finset.mem_insert, or_iff_right hj, herase]
    · rw [herase]

/-- Erasing a key takes it from the keys of what stood there. -/
theorem card_keysOf_erase (t : Table κ β) (k : κ) (b : β) :
    ((t.erase k).keysOf b).card + (if t.find? k = some b then 1 else 0) = (t.keysOf b).card := by
  rw [keysOf_erase]
  split
  · rename_i h
    exact Finset.card_erase_add_one (mem_keysOf.2 h)
  · rename_i h
    rw [Finset.erase_eq_of_notMem fun hmem => h (mem_keysOf.1 hmem)]
    rfl

/-- Entering something under a key adds it to the keys of that, and takes it from the keys of what stood
there. -/
theorem card_keysOf_put (t : Table κ β) (k : κ) (b c : β) :
    ((t.put k b).keysOf c).card + (if t.find? k = some c then 1 else 0) =
      (t.keysOf c).card + if b = c then 1 else 0 := by
  have herase := t.card_keysOf_erase k c
  rw [keysOf_erase] at herase
  rw [keysOf_put]
  split
  · rw [Finset.card_insert_of_notMem (Finset.notMem_erase k _)]
    omega
  · omega

end Table

variable {α : Type} {A : Type → Type}

/-! ### The parts of a step -/

namespace Handles

/-- The handles that denote a list. -/
def owners (h : Handles α A) (n : Nat) : Finset String := h.names.keysOf n

/-- How many handles a list counts; none, if there is no list of this number. -/
def count (h : Handles α A) (n : Nat) : Nat := (h.lists.find? n).elim 0 SharedList.handles

theorem count_eq {h : Handles α A} {n : Nat} {shared : SharedList α A}
    (hfind : h.lists.find? n = some shared) : h.count n = shared.handles := by
  rw [count, hfind]
  rfl

/-- A list that is counted is there. -/
theorem find?_of_count_pos {h : Handles α A} {n : Nat} (hpos : 0 < h.count n) :
    ∃ shared, h.lists.find? n = some shared := by
  cases hfind : h.lists.find? n with
  | none =>
    rw [count, hfind] at hpos
    cases hpos
  | some shared => exact ⟨shared, rfl⟩

theorem retain_eq {h : Handles α A} {n : Nat} {shared : SharedList α A}
    (hfind : h.lists.find? n = some shared) :
    h.retain n =
      { h with lists := h.lists.put n { shared with handles := shared.handles + 1 } } := by
  rw [retain, hfind]

theorem release_eq_erase {h : Handles α A} {n : Nat} {shared : SharedList α A}
    (hfind : h.lists.find? n = some shared) (hlast : shared.handles ≤ 1) :
    h.release n = { h with lists := h.lists.erase n } := by
  rw [release, hfind]
  exact if_pos hlast

theorem release_eq_put {h : Handles α A} {n : Nat} {shared : SharedList α A}
    (hfind : h.lists.find? n = some shared) (hmore : ¬shared.handles ≤ 1) :
    h.release n =
      { h with lists := h.lists.put n { shared with handles := shared.handles - 1 } } := by
  rw [release, hfind]
  exact if_neg hmore

theorem replace_eq {h : Handles α A} {n : Nat} {shared : SharedList α A}
    (hfind : h.lists.find? n = some shared) (c : Chain α A) :
    h.replace n c = { h with lists := h.lists.put n { shared with list := c } } := by
  rw [replace, hfind]

@[simp] theorem names_retain (h : Handles α A) (n : Nat) : (h.retain n).names = h.names := by
  unfold retain
  split <;> rfl

@[simp] theorem names_release (h : Handles α A) (n : Nat) : (h.release n).names = h.names := by
  unfold release
  split
  · rfl
  · split <;> rfl

@[simp] theorem names_replace (h : Handles α A) (n : Nat) (c : Chain α A) :
    (h.replace n c).names = h.names := by
  unfold replace
  split <;> rfl

@[simp] theorem names_bindHandle (h : Handles α A) (handle : String) (n : Nat) :
    (h.bindHandle handle n).names = h.names.put handle n := by
  unfold bindHandle
  split
  · rfl
  · rw [names_release]

/-- The last handle of a list gives it up as when it is dropped, but answers with the list. -/
theorem reclaim_eq {h : Handles α A} {handle : String} {n : Nat} {shared : SharedList α A}
    (hname : h.names.find? handle = some n) (hfind : h.lists.find? n = some shared) :
    h.reclaim handle =
      if shared.handles ≤ 1 then
        (Handles.release { h with names := h.names.erase handle } n, .reclaimed shared.list)
      else (h, .stillShared) := by
  rw [reclaim, hname]
  simp only [hfind]
  split
  · rename_i hlast
    rw [release_eq_erase (h := { h with names := h.names.erase handle }) hfind hlast]
  · rfl

/-- Without a handle there is nothing to take out. -/
theorem reclaim_none {h : Handles α A} {handle : String} (hname : h.names.find? handle = none) :
    h.reclaim handle = (h, .noHandle) := by
  rw [reclaim, hname]

@[simp] theorem names_adopt (h : Handles α A) (handle : String) (c : Chain α A) :
    (h.adopt handle c).names = h.names.put handle h.nextList :=
  names_bindHandle _ handle h.nextList

/-- The list of a handle is found by the number that the handle denotes. -/
theorem list?_def (h : Handles α A) (handle : String) :
    h.list? handle =
      (h.names.find? handle).bind fun n => (h.lists.find? n).map SharedList.list := by
  rw [list?]
  cases h.names.find? handle with
  | none => rfl
  | some n => cases hfind : h.lists.find? n <;> simp [hfind]

theorem list?_eq {h : Handles α A} {handle : String} {n : Nat} {shared : SharedList α A}
    (hname : h.names.find? handle = some n) (hfind : h.lists.find? n = some shared) :
    h.list? handle = some shared.list := by
  rw [list?_def, hname, Option.bind_some, hfind, Option.map_some]

theorem list?_eq_some_iff {h : Handles α A} {handle : String} {c : Chain α A} :
    h.list? handle = some c ↔
      ∃ n shared, h.names.find? handle = some n ∧ h.lists.find? n = some shared ∧
        shared.list = c := by
  simp only [list?_def, Option.bind_eq_some_iff, Option.map_eq_some_iff, exists_and_left]

/-- A list is replaced for all its handles, and for no other. -/
theorem list?_replace {h : Handles α A} {n : Nat} {shared : SharedList α A}
    (hfind : h.lists.find? n = some shared) (c : Chain α A) (handle : String) :
    (h.replace n c).list? handle =
      if h.names.find? handle = some n then some c else h.list? handle := by
  rw [replace_eq hfind, list?_def, list?_def]
  dsimp only
  cases h.names.find? handle with
  | none => rw [if_neg (Option.some_ne_none n).symm]; rfl
  | some m =>
    simp only [Option.bind_some, Table.find?_put, Option.some.injEq]
    split <;> rfl

end Handles

end SlotChain

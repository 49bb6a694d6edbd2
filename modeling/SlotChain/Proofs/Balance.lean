import SlotChain.Proofs.HandleTables
import SlotChain.Proofs.Reachable

/-!
# The count of handles

Each list counts the handles that denote it. While a handle changes hands a list may for a moment have
counted one that is not bound to it, and every part of a step either binds that handle or counts it off
again. So the counts are right after every step, every list that is there has a handle and holds some
items, and whatever a handle denotes is there.
-/

namespace SlotChain

variable {α : Type} {A : Type → Type} [SlotMap A] [Item α]

/-- A list that some handle denotes. -/
structure SharedList.Kept (shared : SharedList α A) : Prop where
  /-- The list counts a handle. -/
  used : 0 < shared.handles
  /-- The list is one that operations can lead to. -/
  reachable : shared.list.Reachable

namespace Handles

/-- Handles and lists in good order, each list with the count of the handles that denote it. A list may
have counted one handle more that is yet to be bound to it, or is bound to it no more. -/
structure Balanced (h : Handles α A) (pending : Option Nat) : Prop where
  /-- Every list is used, and one that operations can lead to. -/
  kept : ∀ n shared, h.lists.find? n = some shared → shared.Kept
  /-- The number of the next list is not taken. -/
  numbered : ∀ n shared, h.lists.find? n = some shared → n < h.nextList
  /-- Each list counts its handles, and the one that is pending. -/
  counted : ∀ n, h.count n = (h.owners n).card + if pending = some n then 1 else 0

/-- Handles and lists in good order, and each list has exactly the handles that it counts. -/
def Valid (h : Handles α A) : Prop := h.Balanced none

omit [SlotMap A] [Item α] in
/-- A pending handle concerns only its own list. -/
theorem pending_iff {n m : Nat} (hne : m ≠ n) : (none : Option Nat) = some m ↔ some n = some m :=
  iff_of_false (Option.some_ne_none m).symm fun heq => hne (Option.some.inj heq).symm

namespace Balanced

variable {h : Handles α A} {pending : Option Nat}

/-- Changing one list keeps the balance, if the count of its handles is changed alike. -/
theorem put (hb : h.Balanced pending) {n : Nat} {shared : SharedList α A} (hkept : shared.Kept)
    (hn : n < h.nextList) {pending' : Option Nat}
    (hothers : ∀ m, m ≠ n → (pending = some m ↔ pending' = some m))
    (hcount : shared.handles = (h.owners n).card + if pending' = some n then 1 else 0) :
    Balanced { h with lists := h.lists.put n shared } pending' where
  kept m other hm := by
    rw [Table.find?_put] at hm
    split at hm
    · cases hm
      exact hkept
    · exact hb.kept m other hm
  numbered m other hm := by
    rw [Table.find?_put] at hm
    split at hm
    · rename_i heq
      exact heq ▸ hn
    · exact hb.numbered m other hm
  counted m := by
    rw [count, Table.find?_put]
    split
    · rename_i heq
      rw [heq]
      exact hcount
    · rename_i hne
      have hm := hb.counted m
      rw [if_congr (hothers m hne) rfl rfl] at hm
      exact hm

/-- A pending handle comes with a list. -/
theorem find?_pending {n : Nat} (hb : h.Balanced (some n)) :
    ∃ shared, h.lists.find? n = some shared ∧
      shared.handles = (h.owners n).card + 1 := by
  have hn := hb.counted n
  rw [if_pos rfl] at hn
  obtain ⟨shared, hfind⟩ := find?_of_count_pos (h := h) (n := n) (by omega)
  rw [count_eq hfind] at hn
  exact ⟨shared, hfind, hn⟩

/-- A list goes away when the pending handle is the only one that it has counted. -/
theorem eraseList {n : Nat} (hb : h.Balanced (some n)) (hnone : (h.owners n).card = 0) :
    Valid { h with lists := h.lists.erase n } where
  kept m other hm := by
    rw [Table.find?_erase] at hm
    split at hm
    · cases hm
    · exact hb.kept m other hm
  numbered m other hm := by
    rw [Table.find?_erase] at hm
    split at hm
    · cases hm
    · exact hb.numbered m other hm
  counted m := by
    rw [count, Table.find?_erase]
    split
    · rename_i heq
      rw [heq]
      exact hnone.symm
    · rename_i hne
      have hm := hb.counted m
      rw [if_congr (pending_iff hne).symm rfl rfl] at hm
      exact hm

/-- A list gives the pending handle up, and goes away if that was the last. -/
theorem release {n : Nat} (hb : h.Balanced (some n)) : (h.release n).Valid := by
  obtain ⟨shared, hfind, hcount⟩ := hb.find?_pending
  by_cases hlast : shared.handles ≤ 1
  · rw [release_eq_erase hfind hlast]
    exact hb.eraseList (by omega)
  · rw [release_eq_put hfind hlast]
    have hkept : SharedList.Kept { shared with handles := shared.handles - 1 } :=
      ⟨Nat.sub_pos_of_lt (Nat.lt_of_not_le hlast), (hb.kept n shared hfind).reachable⟩
    exact hb.put hkept (hb.numbered n shared hfind) (fun m hne => (pending_iff hne).symm)
      (Nat.sub_eq_of_eq_add hcount)

/-- The pending handle is bound, and leaves one pending for the list that it denoted before. -/
theorem putName {n : Nat} (hb : h.Balanced (some n)) (handle : String) :
    Balanced { h with names := h.names.put handle n } (h.names.find? handle) where
  kept := hb.kept
  numbered := hb.numbered
  counted m := by
    have hm := hb.counted m
    have hcard := h.names.card_keysOf_put handle n m
    simp only [Option.some.injEq] at hm
    exact hm.trans hcard.symm

/-- A handle is bound to a list that has counted it. -/
theorem bindHandle {n : Nat} (hb : h.Balanced (some n)) (handle : String) :
    (h.bindHandle handle n).Valid := by
  have hput := hb.putName handle
  unfold Handles.bindHandle
  -- What the handle denoted before is pending now, and that may be the same list as before.
  split
  · rename_i hnone
    rw [hnone] at hput
    exact hput
  · rename_i old hold
    rw [hold] at hput
    exact hput.release

end Balanced

namespace Valid

variable {h : Handles α A} {n : Nat} {shared : SharedList α A}

theorem empty : (Handles.empty : Handles α A).Valid where
  kept _ _ hfind := nomatch hfind
  numbered _ _ hfind := nomatch hfind
  counted _ := rfl

/-- What a handle denotes is there. -/
theorem find?_of_name (hv : h.Valid) {handle : String} (hname : h.names.find? handle = some n) :
    ∃ shared, h.lists.find? n = some shared := by
  have hn := hv.counted n
  have hpos := Finset.card_pos.2 ⟨handle, Table.mem_keysOf.2 hname⟩
  exact find?_of_count_pos (by rw [hn]; exact Nat.add_pos_left hpos _)

/-- A list has as many handles as it counts. -/
theorem handles_eq (hv : h.Valid) (hfind : h.lists.find? n = some shared) :
    shared.handles = (h.owners n).card := (count_eq hfind).symm.trans (hv.counted n)

/-- A handle that is erased is pending for the list that it denoted. -/
theorem eraseName (hv : h.Valid) (handle : String) :
    Balanced { h with names := h.names.erase handle } (h.names.find? handle) where
  kept := hv.kept
  numbered := hv.numbered
  counted m := (hv.counted m).trans (h.names.card_keysOf_erase handle m).symm

/-- A list counts a handle that is yet to be bound to it. -/
theorem retain (hv : h.Valid) (hfind : h.lists.find? n = some shared) :
    (h.retain n).Balanced (some n) := by
  rw [retain_eq hfind]
  have hkept : SharedList.Kept { shared with handles := shared.handles + 1 } :=
    ⟨Nat.succ_pos _, (hv.kept n shared hfind).reachable⟩
  refine hv.put hkept (hv.numbered n shared hfind) (fun m hne => pending_iff hne) ?_
  rw [if_pos rfl, ← hv.handles_eq hfind]

/-- A list may be replaced by any that operations can lead to. -/
theorem replace (hv : h.Valid) {c : Chain α A} (hc : c.Reachable) : (h.replace n c).Valid := by
  cases hfind : h.lists.find? n with
  | none =>
    rw [Handles.replace, hfind]
    exact hv
  | some shared =>
    rw [replace_eq hfind]
    have hkept : SharedList.Kept { shared with list := c } := ⟨(hv.kept n shared hfind).used, hc⟩
    have hcount := hv.handles_eq hfind
    exact hv.put hkept (hv.numbered n shared hfind) (fun _ _ => .rfl) hcount

/-- A list that no handle has denoted before gets its first. -/
theorem adopt (hv : h.Valid) (handle : String) {c : Chain α A} (hc : c.Reachable) :
    (h.adopt handle c).Valid := by
  have hnext : Balanced { h with nextList := h.nextList + 1 } none :=
    ⟨hv.kept, fun m other hm => Nat.lt_succ_of_lt (hv.numbered m other hm), hv.counted⟩
  have hfresh : (h.owners h.nextList).card = 0 := by
    rw [Finset.card_eq_zero, Finset.eq_empty_iff_forall_notMem]
    intro other hother
    obtain ⟨shared, hfind⟩ := hv.find?_of_name (Table.mem_keysOf.1 hother)
    exact absurd (hv.numbered _ shared hfind) (Nat.lt_irrefl _)
  have hkept : SharedList.Kept ⟨c, 1⟩ := ⟨Nat.one_pos, hc⟩
  refine Balanced.bindHandle (hnext.put hkept (Nat.lt_succ_self _) (fun m hne => ?_) ?_) handle
  · exact pending_iff hne
  · rw [if_pos rfl]
    exact (congrArg (· + 1) hfresh).symm

/-- What is built for a handle becomes its list, unless building stops with a fault. -/
theorem build (hv : h.Valid) (handle : String) {built : Except Fault (Chain α A)}
    (hbuilt : ∀ c, built = .ok c → c.Reachable) : (h.build handle built).1.Valid := by
  cases built with
  | error fault => exact hv
  | ok c => exact hv.adopt handle (hbuilt c rfl)

/-- A handle is given up together with its share of the list. -/
theorem forget (hv : h.Valid) {handle : String} (hname : h.names.find? handle = some n) :
    (Handles.release { h with names := h.names.erase handle } n).Valid := by
  have herase := hv.eraseName handle
  rw [hname] at herase
  exact herase.release

end Valid

end Handles

namespace Chain.Reachable

theorem withCapacity {capacity : Nat} {c : Chain α A} (h : Chain.withCapacity capacity = .ok c) :
    c.Reachable := by
  have hstep : (ListStep.build capacity).perform (Chain.empty : Chain α A) = .ok ⟨.done, c, []⟩ := by
    rw [ListStep.perform, h]
    rfl
  exact .step .empty hstep

theorem ofList {items : List α} {c : Chain α A}
    (h : (Chain.ofList items).map Outcome.state = .ok c) : c.Reachable := by
  cases hbuild : Chain.ofList (A := A) items with
  | error fault =>
    rw [hbuild] at h
    cases h
  | ok o =>
    rw [hbuild] at h
    cases h
    have hstep : (ListStep.collect items).perform (Chain.empty : Chain α A) =
        .ok { o with answer := .done } := by
      rw [ListStep.perform, hbuild]
      rfl
    exact .step .empty hstep

end Chain.Reachable

namespace Handles

@[simp] theorem names_exclusive (h : Handles α A) (handle : String) (steps : List (ListStep α)) :
    (h.exclusive handle steps).1.names = h.names := by
  unfold exclusive
  split
  · rfl
  · split
    · rfl
    · exact names_replace h _ _

/-- A section on the list of a handle is a course of steps that leaves its outcome in place of the list. -/
theorem exclusive_eq {h : Handles α A} {handle : String} {n : Nat} {shared : SharedList α A}
    (hname : h.names.find? handle = some n) (hfind : h.lists.find? n = some shared)
    (steps : List (ListStep α)) :
    h.exclusive handle steps =
      (h.replace n (ListStep.performAll steps shared.list).1,
        some (ListStep.performAll steps shared.list).2) := by
  rw [exclusive, hname]
  simp only [hfind]

/-- A section through a handle without a list does nothing. -/
theorem exclusive_none {h : Handles α A} {handle : String} (hname : h.names.find? handle = none)
    (steps : List (ListStep α)) : h.exclusive handle steps = (h, none) := by
  rw [exclusive, hname]

theorem perform_on_fst (h : Handles α A) (handle : String) (step : ListStep α) :
    (h.perform (.on handle step)).1 = (h.exclusive handle [step]).1 := by
  rw [perform]
  rcases h.exclusive handle [step] with ⟨h', _ | result⟩ <;> rfl

theorem perform_section_fst (h : Handles α A) (handle : String) (steps : List (ListStep α)) :
    (h.perform (.section handle steps)).1 = (h.exclusive handle steps).1 := by
  rw [perform]
  rcases h.exclusive handle steps with ⟨h', _ | result⟩ <;> rfl

theorem perform_reclaim (h : Handles α A) (handle : String) :
    h.perform (.reclaim handle) = ((h.reclaim handle).1, .ok (h.reclaim handle).2) := rfl

namespace Valid

variable {h : Handles α A}

/-- A section keeps handles and lists in good order, also where it stops with a fault. -/
theorem exclusive (hv : h.Valid) (handle : String) (steps : List (ListStep α)) :
    (h.exclusive handle steps).1.Valid := by
  cases hname : h.names.find? handle with
  | none =>
    rw [exclusive_none hname]
    exact hv
  | some n =>
    obtain ⟨shared, hfind⟩ := hv.find?_of_name hname
    rw [exclusive_eq hname hfind]
    exact hv.replace ((hv.kept n shared hfind).reachable.performAll steps)

/-- Every step with a handle keeps handles and lists in good order. -/
theorem perform (hv : h.Valid) (step : HandleStep α) : (h.perform step).1.Valid := by
  cases step with
  | create handle capacity => exact hv.build handle fun _ => Chain.Reachable.withCapacity
  | collect handle items => exact hv.build handle fun _ => Chain.Reachable.ofList
  | share handle target =>
    rw [Handles.perform]
    split
    · exact hv
    · rename_i n hname
      obtain ⟨shared, hfind⟩ := hv.find?_of_name hname
      exact (hv.retain hfind).bindHandle target
  | drop handle =>
    rw [Handles.perform]
    split
    · exact hv
    · rename_i n hname
      exact hv.forget hname
  | on handle step =>
    rw [perform_on_fst]
    exact hv.exclusive handle [step]
  | «section» handle steps =>
    rw [perform_section_fst]
    exact hv.exclusive handle steps
  | reclaim handle =>
    rw [perform_reclaim]
    cases hname : h.names.find? handle with
    | none =>
      rw [reclaim_none hname]
      exact hv
    | some n =>
      obtain ⟨shared, hfind⟩ := hv.find?_of_name hname
      rw [reclaim_eq hname hfind]
      split
      · exact hv.forget hname
      · exact hv

end Valid

end Handles

end SlotChain

import SlotChain.Cursor
import SlotChain.Proofs.Threads
import SlotChain.Proofs.TwoEndedCalls

/-!
# Cursors read a segment of the run

A cursor over a well-formed chain stands for a segment of its run: the count says how long the segment
is, and as long as it is not empty the two positions are its two ends. What the positions are once the
count is zero does not matter; they may well have passed each other. From this the items of a chain can
be read in either order, and so can its two ends.
-/

namespace SlotChain

variable {α : Type} {A : Type → Type} [SlotMap A]

/-- The event list of steps that emit nothing. -/
def noEvent : Nat → List Event := fun _ => []

@[simp] theorem takenEvents_noEvent (n k : Nat) : takenEvents noEvent n k = [] := by
  simp only [takenEvents, noEvent, List.flatMap_eq_nil_iff, implies_true]

/-- A call to a source that emits nothing emits nothing. -/
@[simp] theorem Call.events_noEvent (n : Nat) (q : Call) : q.events noEvent noEvent n = [] := by
  rw [Call.events, takenEvents_noEvent, takenEvents_noEvent, List.append_nil]

/-- Calls to a source that emits nothing emit nothing. -/
@[simp] theorem Call.eventsAll_noEvent (xs : List α) (qs : List Call) :
    Call.eventsAll noEvent noEvent xs qs = [] := by
  induction qs generalizing xs with
  | nil => rfl
  | cons q qs ih => rw [Call.eventsAll, Call.events_noEvent, ih, List.append_nil]

namespace Cursor

/-- A cursor stands between the cells that it has left behind at either side, and the items ahead of it
are those in between. -/
def Reads (c : Chain α A) (k : Cursor) (xs : List α) : Prop :=
  ∃ before ahead behind, c.Threads (before ++ (ahead ++ behind)) ∧ ahead.map Prod.snd = xs ∧
    k.remaining = ahead.length ∧
      (ahead ≠ [] → k.front = firstToken ahead ∧ k.back = lastToken ahead)

/-- A new cursor has the whole chain ahead. -/
theorem reads_ofChain {c : Chain α A} {xs : List α} (h : c.Holds xs) :
    Reads c (Cursor.ofChain c) xs := by
  obtain ⟨cells, hcells, rfl⟩ := h
  refine ⟨[], cells, [], ?_, rfl, hcells.len, fun _ => ⟨hcells.head, hcells.tail⟩⟩
  rwa [List.append_nil, List.nil_append]

theorem Reads.remaining_eq {c : Chain α A} {k : Cursor} {xs : List α} (h : Reads c k xs) :
    k.remaining = xs.length := by
  obtain ⟨before, ahead, behind, -, rfl, hlen, -⟩ := h
  rw [hlen, List.length_map]

/-- Nothing ahead, nothing yielded, and the cursor stays as it is. -/
theorem next_of_remaining (c : Chain α A) {k : Cursor} (h : k.remaining = 0) :
    next c k = .ok ⟨none, k, []⟩ := by
  simp only [next, h]

theorem nextBack_of_remaining (c : Chain α A) {k : Cursor} (h : k.remaining = 0) :
    nextBack c k = .ok ⟨none, k, []⟩ := by
  simp only [nextBack, h]

/-- The step at the front yields the first item ahead. -/
theorem next_yields (c : Chain α A) : Yields (next c) noEvent (Reads c) := by
  intro k xs h
  cases xs with
  | nil =>
    rw [next_of_remaining c h.remaining_eq]
    exact .done h
  | cons x xs =>
    obtain ⟨before, ahead, behind, hthreads, hitems, hlen, hends⟩ := h
    obtain ⟨⟨t, y⟩, rest, rfl, rfl, rfl⟩ := List.map_eq_cons_iff.1 hitems
    obtain ⟨hfront, hback⟩ := hends (List.cons_ne_nil _ _)
    have hstep : next c k = .ok ⟨some y, ⟨firstToken (rest ++ behind), k.back, rest.length⟩, []⟩ := by
      rw [List.length_cons] at hlen
      simp only [next, hlen, hfront, firstToken_cons, hthreads.cell_eq]
      rfl
    rw [hstep]
    refine .done ⟨before ++ [(t, y)], rest, behind, ?_, rfl, rfl, fun hne => ?_⟩
    · rwa [List.append_assoc]
    · obtain ⟨cell, more, rfl⟩ := List.exists_cons_of_ne_nil hne
      refine ⟨rfl, ?_⟩
      rw [hback, lastToken_cons, lastToken_cons, Option.or_assoc, Option.some_or]

/-- The step at the back yields the last item ahead. -/
theorem nextBack_yields (c : Chain α A) :
    Yields (nextBack c) noEvent fun k xs => Reads c k xs.reverse := by
  intro k xs h
  cases xs with
  | nil =>
    rw [nextBack_of_remaining c h.remaining_eq]
    exact .done h
  | cons x xs =>
    obtain ⟨before, ahead, behind, hthreads, hitems, hlen, hends⟩ := h
    rw [List.reverse_cons] at hitems
    obtain ⟨rest, last, rfl, hrest, hlast⟩ := List.map_eq_append_iff.1 hitems
    obtain ⟨⟨t, y⟩, nothing, rfl, rfl, hnil⟩ := List.map_eq_cons_iff.1 hlast
    obtain rfl := List.map_eq_nil_iff.1 hnil
    obtain ⟨hfront, hback⟩ := hends (List.append_ne_nil_of_right_ne_nil _ (List.cons_ne_nil _ _))
    have hcut : c.Threads ((before ++ rest) ++ (t, y) :: behind) := by
      simpa only [List.append_assoc, List.cons_append, List.nil_append] using hthreads
    have hstep : nextBack c k =
        .ok ⟨some y, ⟨k.front, lastToken (before ++ rest), rest.length⟩, []⟩ := by
      rw [List.length_append, List.length_singleton] at hlen
      simp only [nextBack, hlen, hback, lastToken_concat, hcut.cell_eq]
      rfl
    rw [hstep]
    refine .done ⟨before, rest, (t, y) :: behind, ?_, hrest, rfl, fun hne => ?_⟩
    · rwa [← List.append_assoc]
    · rcases List.eq_nil_or_concat' rest with rfl | ⟨more, cell, rfl⟩
      · exact absurd rfl hne
      · refine ⟨?_, ?_⟩
        · rw [hfront, firstToken_append, firstToken_append, Option.or_assoc, firstToken_cons,
            Option.some_or]
        · rw [lastToken_append, lastToken_concat, Option.some_or]

/-- A cursor answers every call like the sequence of the items ahead of it. -/
theorem follows (c : Chain α A) : (source c).Follows noEvent noEvent (Reads c) where
  takeFront := next_yields c
  takeBack := nextBack_yields c
  remaining _ _ h := h.remaining_eq

end Cursor

namespace Chain

variable {c : Chain α A} {xs : List α}

/-- The items can be read along the `next` links. -/
theorem Holds.items_eq (h : c.Holds xs) : c.items = .ok xs := by
  have hk := Cursor.reads_ofChain h
  obtain ⟨k, hall, -⟩ :=
    (TwoEnded.takeAll_spec (e := Cursor.source c) (Cursor.next_yields c) hk hk.remaining_eq).completes
      trivial
  rw [items, hall]
  rfl

/-- The items that are read are those that the chain holds. -/
theorem Holds.eq_of_items (h : c.Holds xs) {ys : List α} (hitems : c.items = .ok ys) : ys = xs :=
  Except.ok.inj (hitems.symm.trans h.items_eq)

/-- The items can be read along the `prev` links, in reverse. -/
theorem Holds.itemsReversed_eq (h : c.Holds xs) : c.itemsReversed = .ok xs.reverse := by
  obtain ⟨k, hall, -⟩ :=
    ((Cursor.follows c).restReversed_spec (Cursor.reads_ofChain h)).completes trivial
  rw [itemsReversed]
  exact congrArg (Except.map Outcome.answer) hall

/-- The first item is at the head. -/
theorem Holds.front_eq (h : c.Holds xs) : c.front = .ok xs.head? := by
  obtain ⟨cells, hcells, rfl⟩ := h
  rw [front, hcells.head]
  cases cells with
  | nil => rfl
  | cons cell rest =>
    rw [← List.nil_append (cell :: rest)] at hcells
    rw [firstToken_cons, itemAt, hcells.cell_eq]
    rfl

/-- The last item is at the tail. -/
theorem Holds.back_eq (h : c.Holds xs) : c.back = .ok xs.getLast? := by
  obtain ⟨cells, hcells, rfl⟩ := h
  rw [back, hcells.tail]
  rcases List.eq_nil_or_concat' cells with rfl | ⟨more, cell, rfl⟩
  · rfl
  · rw [lastToken_concat, itemAt, hcells.cell_eq, List.map_append, List.map_cons, List.map_nil,
      List.getLast?_concat]
    rfl

theorem Holds.isEmpty_eq (h : c.Holds xs) : c.isEmpty = xs.isEmpty := by
  rw [isEmpty, h.len_eq]
  cases xs <;> rfl

/-- All that can be observed of a chain agrees with a sequence of items. -/
structure Shows (c : Chain α A) (xs : List α) : Prop where
  /-- The length is that of the sequence. -/
  len : c.len = xs.length
  /-- The chain is empty exactly if the sequence is. -/
  isEmpty : c.isEmpty = true ↔ xs = []
  /-- The front is the first item, if there is one. -/
  front : c.front = .ok xs.head?
  /-- The back is the last item, if there is one. -/
  back : c.back = .ok xs.getLast?
  /-- Reading along the `next` links gives the sequence. -/
  items : c.items = .ok xs
  /-- Reading along the `prev` links gives the reversed sequence. -/
  itemsReversed : c.itemsReversed = .ok xs.reverse

/-- A chain shows the items that it holds. -/
theorem Holds.shows (h : c.Holds xs) : c.Shows xs where
  len := h.len_eq
  isEmpty := by rw [h.isEmpty_eq, List.isEmpty_iff]
  front := h.front_eq
  back := h.back_eq
  items := h.items_eq
  itemsReversed := h.itemsReversed_eq

end Chain

end SlotChain

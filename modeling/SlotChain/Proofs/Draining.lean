import SlotChain.Chain.Drain
import SlotChain.Proofs.Mutations
import SlotChain.Proofs.TwoEndedCalls

/-!
# A drained chain yields its items

A chain that is drained stands for the items that it still holds. Each item taken from the front deletes
the head and each taken from the back deletes the tail, so that the chain stays well formed in between
and every item taken leaves one event with the number of items behind it.
-/

namespace SlotChain.Chain

variable {α : Type} {A : Type → Type} [SlotMap A]

/-- The event of a deletion that leaves so many items. -/
def deletion (change : Mutation) : Nat → List Event := fun n => [.mutated change n]

/-- Deleting the head yields the items in order. -/
theorem deleteHead_yields :
    Yields (deleteHead : Act (Chain α A) (Option α)) (deletion .deleteHead) Holds := by
  intro c xs h
  cases xs with
  | nil =>
    rw [h.deleteHead_nil]
    exact .done h
  | cons x xs =>
    obtain ⟨c', hok, hnew⟩ := h.deleteHead_cons
    rw [hok]
    exact .done hnew

/-- Deleting the tail yields the items in reverse. -/
theorem deleteTail_yields :
    Yields (deleteTail : Act (Chain α A) (Option α)) (deletion .deleteTail)
      fun c xs => c.Holds xs.reverse := by
  intro c xs h
  cases xs with
  | nil =>
    rw [h.deleteTail_nil]
    exact .done h
  | cons x xs =>
    rw [List.reverse_cons] at h
    obtain ⟨c', hok, hnew⟩ := h.deleteTail_concat
    rw [hok, List.length_reverse]
    exact .done hnew

/-- The events of one deletion from so many items, of which there are none if there is no item. -/
def deletionEvents (change : Mutation) : Nat → List Event
  | 0 => []
  | n + 1 => deletion change n

theorem popped_deletion (change : Mutation) (xs : List α) :
    popped (deletion change) xs = ⟨xs.head?, xs.tail, deletionEvents change xs.length⟩ := by
  cases xs <;> rfl

/-- Deleting the head pops the front of the items. -/
theorem Holds.deleteHead {c : Chain α A} {xs : List α} (h : c.Holds xs) :
    Matches True Holds (Chain.deleteHead c)
      ⟨xs.head?, xs.tail, deletionEvents .deleteHead xs.length⟩ := by
  rw [← popped_deletion]
  exact deleteHead_yields c xs h

/-- Deleting the tail pops the back of the items. -/
theorem Holds.deleteTail {c : Chain α A} {xs : List α} (h : c.Holds xs) :
    Matches True Holds (Chain.deleteTail c)
      ⟨xs.getLast?, xs.dropLast, deletionEvents .deleteTail xs.length⟩ := by
  have hreversed : c.Holds xs.reverse.reverse := by rwa [List.reverse_reverse]
  have hback := deleteTail_yields c xs.reverse hreversed
  rw [popped_deletion, List.head?_reverse, List.tail_reverse, List.length_reverse] at hback
  have hread := hback.restate
  rwa [List.reverse_reverse] at hread

/-- A drained chain answers every call like the sequence of its items. -/
theorem drain_follows :
    (drain : TwoEnded (Chain α A) α).Follows (deletion .deleteHead) (deletion .deleteTail)
      Holds where
  takeFront := deleteHead_yields
  takeBack := deleteTail_yields
  remaining _ _ h := h.len_eq

/-- A log tells how items left a sequence: each entry names the end at which one item left and how many
remained behind. -/
inductive Removes : List α → List Event → List α → Prop
  /-- No item left. -/
  | nothing (xs : List α) : Removes xs [] xs
  /-- The first item left. -/
  | front (x : α) {xs ys : List α} {log : List Event} (h : Removes xs log ys) :
    Removes (x :: xs) (.mutated .deleteHead xs.length :: log) ys
  /-- The last item left. -/
  | back (x : α) {xs ys : List α} {log : List Event} (h : Removes xs log ys) :
    Removes (xs ++ [x]) (.mutated .deleteTail xs.length :: log) ys

/-- Logs are joined where one ends and the other begins. -/
theorem Removes.trans {xs ys zs : List α} {log more : List Event} (h : Removes xs log ys)
    (hmore : Removes ys more zs) : Removes xs (log ++ more) zs := by
  induction h with
  | nothing => exact hmore
  | front x _ ih => exact (ih hmore).front x
  | back x _ ih => exact (ih hmore).back x

/-- The log of taking items from the front. -/
theorem removes_drop {xs : List α} {k : Nat} (hk : k ≤ xs.length) :
    Removes xs (takenEvents (deletion .deleteHead) xs.length k) (xs.drop k) := by
  induction k generalizing xs with
  | zero => exact .nothing xs
  | succ k ih =>
    cases xs with
    | nil => cases hk
    | cons x xs =>
      rw [List.length_cons, takenEvents_succ]
      exact (ih (Nat.le_of_succ_le_succ hk)).front x

/-- The log of taking items from the back. -/
theorem removes_take {xs : List α} {k : Nat} (hk : k ≤ xs.length) :
    Removes xs (takenEvents (deletion .deleteTail) xs.length k) (xs.take (xs.length - k)) := by
  induction k generalizing xs with
  | zero =>
    rw [Nat.sub_zero, List.take_length]
    exact .nothing xs
  | succ k ih =>
    rcases List.eq_nil_or_concat' xs with rfl | ⟨front, x, rfl⟩
    · cases hk
    · rw [List.length_append, List.length_singleton] at hk ⊢
      have hrest := ih (Nat.le_of_succ_le_succ hk)
      rw [takenEvents_succ, Nat.add_sub_add_right, List.take_append_of_le_length (Nat.sub_le _ _)]
      exact hrest.back x

/-- The events of a call tell how the items left that it takes. -/
theorem removes_call (xs : List α) (q : Call) :
    Removes xs (q.events (deletion .deleteHead) (deletion .deleteTail) xs.length) (q.left xs) := by
  have hle := q.takes_le xs.length
  rcases q.takes_from_one_end xs.length with hfront | hback
  · rw [Call.events, Call.left, hfront, takenEvents_zero, List.nil_append, List.drop_zero]
    exact removes_take (by omega)
  · rw [Call.events, Call.left, hback, takenEvents_zero, List.append_nil, Nat.sub_zero,
      List.take_length]
    exact removes_drop (by omega)

/-- The events of calls tell how the items left that they take. -/
theorem removes_calls (xs : List α) (qs : List Call) :
    Removes xs (Call.eventsAll (deletion .deleteHead) (deletion .deleteTail) xs qs)
      (Call.leftAll xs qs) := by
  induction qs generalizing xs with
  | nil => exact .nothing xs
  | cons q qs ih => exact (removes_call xs q).trans (ih (q.left xs))

end SlotChain.Chain

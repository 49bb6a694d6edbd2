import SlotChain.Proofs.Outcomes
import SlotChain.TwoEnded

/-!
# Calls on a plain sequence

What a call answers, how many items it takes from either end and what it leaves is said here in closed
form for a plain sequence. Any source whose two steps pop the ends of the sequence that it stands for
answers every call in this way, and emits exactly the events of the items taken, skipped ones included.
-/

namespace SlotChain

variable {σ α : Type}

namespace Call

/-- The number of items that a call takes from the front when so many are left. -/
def takesFront (n : Nat) : Call → Nat
  | .next => min 1 n
  | .nth k => min (k + 1) n
  | .count => n
  | .last => n
  | .rest => n
  | _ => 0

/-- The number of items that a call takes from the back when so many are left. -/
def takesBack (n : Nat) : Call → Nat
  | .nextBack => min 1 n
  | .nthBack k => min (k + 1) n
  | .restReversed => n
  | _ => 0

/-- The answer to a call when these items are left. -/
def reply (xs : List α) : Call → Reply α
  | .next => .item xs.head?
  | .nextBack => .item xs.getLast?
  | .nth k => .item xs[k]?
  | .nthBack k => .item xs.reverse[k]?
  | .count => .number xs.length
  | .last => .item xs.getLast?
  | .rest => .items xs
  | .restReversed => .items xs.reverse
  | .len => .number xs.length
  | .sizeHint => .bounds xs.length xs.length

/-- The items that a call leaves. -/
def left (xs : List α) (q : Call) : List α :=
  (xs.take (xs.length - q.takesBack xs.length)).drop (q.takesFront xs.length)

/-- A call takes at most as many items as are left, from both ends together. -/
theorem takes_le (n : Nat) (q : Call) : q.takesFront n + q.takesBack n ≤ n := by
  cases q <;> simp only [takesFront, takesBack] <;> omega

/-- A call takes items from one end only. -/
theorem takes_from_one_end (n : Nat) (q : Call) : q.takesFront n = 0 ∨ q.takesBack n = 0 := by
  cases q <;> simp only [takesFront, takesBack, true_or, or_true]

/-- The items taken from the front, those left and those taken from the back make up the whole. -/
theorem take_left_drop (xs : List α) (q : Call) :
    xs.take (q.takesFront xs.length) ++
      (q.left xs ++ xs.drop (xs.length - q.takesBack xs.length)) = xs := by
  have hle := q.takes_le xs.length
  have hfront : xs.take (q.takesFront xs.length) =
      (xs.take (xs.length - q.takesBack xs.length)).take (q.takesFront xs.length) := by
    rw [List.take_take, Nat.min_eq_left (by omega)]
  rw [left, hfront, ← List.append_assoc, List.take_append_drop, List.take_append_drop]

end Call

/-- The events of taking items one after the other, when the event of each is told by the number of
items behind it. -/
def takenEvents (event : Nat → List Event) (n k : Nat) : List Event :=
  (List.range k).flatMap fun i => event (n - (i + 1))

@[simp] theorem takenEvents_zero (event : Nat → List Event) (n : Nat) : takenEvents event n 0 = [] :=
  rfl

theorem takenEvents_succ (event : Nat → List Event) (n k : Nat) :
    takenEvents event (n + 1) (k + 1) = event n ++ takenEvents event n k := by
  simp only [takenEvents, List.range_succ_eq_map, List.flatMap_cons, List.flatMap_map,
    Nat.add_sub_add_right, Nat.sub_zero]

/-- The first item taken off a sequence, with the event of taking it. -/
def popped (event : Nat → List Event) : List α → Outcome (List α) (Option α)
  | [] => ⟨none, [], []⟩
  | x :: xs => ⟨some x, xs, event xs.length⟩

/-- A step yields the items of a sequence, one at a time, until none are left. -/
def Yields (take : Act σ (Option α)) (event : Nat → List Event) (view : σ → List α → Prop) : Prop :=
  ∀ s xs, view s xs → Matches True view (take s) (popped event xs)

namespace Call

/-- The events of a call when so many items are left. -/
def events (front back : Nat → List Event) (n : Nat) (q : Call) : List Event :=
  takenEvents front n (q.takesFront n) ++ takenEvents back n (q.takesBack n)

/-- All that a call does to a sequence. -/
def outcome (front back : Nat → List Event) (xs : List α) (q : Call) :
    Outcome (List α) (Reply α) :=
  ⟨q.reply xs, q.left xs, q.events front back xs.length⟩

/-- A call that takes nothing from the back leaves what follows the items taken. -/
theorem outcome_of_takesBack {front back : Nat → List Event} {xs : List α} {q : Call}
    (h : q.takesBack xs.length = 0) :
    q.outcome front back xs = ⟨q.reply xs, xs.drop (q.takesFront xs.length),
      takenEvents front xs.length (q.takesFront xs.length)⟩ := by
  rw [outcome, left, events, h, Nat.sub_zero, List.take_length, takenEvents_zero, List.append_nil]

/-- A call that takes nothing from the front leaves what precedes the items taken. -/
theorem outcome_of_takesFront {front back : Nat → List Event} {xs : List α} {q : Call}
    (h : q.takesFront xs.length = 0) :
    q.outcome front back xs = ⟨q.reply xs, xs.take (xs.length - q.takesBack xs.length),
      takenEvents back xs.length (q.takesBack xs.length)⟩ := by
  rw [outcome, left, events, h, List.drop_zero, takenEvents_zero, List.nil_append]

/-- The answers to calls one after the other. -/
def replies : List α → List Call → List (Reply α)
  | _, [] => []
  | xs, q :: qs => q.reply xs :: replies (q.left xs) qs

/-- The items that calls one after the other leave. -/
def leftAll : List α → List Call → List α
  | xs, [] => xs
  | xs, q :: qs => leftAll (q.left xs) qs

/-- A call leaves a segment of the items. -/
theorem left_segment (xs : List α) (q : Call) : q.left xs <:+: xs :=
  (List.drop_suffix _ _).isInfix.trans (List.take_prefix _ _).isInfix

/-- Calls one after the other leave a segment of the items. -/
theorem leftAll_segment (xs : List α) (qs : List Call) : leftAll xs qs <:+: xs := by
  induction qs generalizing xs with
  | nil => exact List.infix_rfl
  | cons q qs ih => exact (ih (q.left xs)).trans (left_segment xs q)

/-- The events of calls one after the other. -/
def eventsAll (front back : Nat → List Event) : List α → List Call → List Event
  | _, [] => []
  | xs, q :: qs => q.events front back xs.length ++ eventsAll front back (q.left xs) qs

/-- All that calls one after the other do to a sequence. -/
def outcomes (front back : Nat → List Event) (xs : List α) (qs : List Call) :
    Outcome (List α) (List (Reply α)) :=
  ⟨replies xs qs, leftAll xs qs, eventsAll front back xs qs⟩

end Call

namespace TwoEnded

/-- A source stands for the sequence of items that it has not yielded yet. -/
structure Follows (e : TwoEnded σ α) (front back : Nat → List Event)
    (view : σ → List α → Prop) : Prop where
  /-- The step at the front yields the items in order. -/
  takeFront : Yields e.takeFront front view
  /-- The step at the back yields them in reverse. -/
  takeBack : Yields e.takeBack back fun s xs => view s xs.reverse
  /-- The source counts its items. -/
  remaining : ∀ s xs, view s xs → e.remaining s = xs.length

variable {take : Act σ (Option α)} {event : Nat → List Event} {view : σ → List α → Prop}

/-- Skipping items takes them all the same. -/
theorem takeNth_spec (h : Yields take event view) (k : Nat) {s : σ} {xs : List α}
    (hs : view s xs) :
    Matches True view (takeNth take k s)
      ⟨xs[k]?, xs.drop (k + 1), takenEvents event xs.length (min (k + 1) xs.length)⟩ := by
  induction k generalizing s xs with
  | zero =>
    have hstep := h s xs hs
    rw [takeNth]
    cases xs with
    | nil => exact hstep
    | cons x xs =>
      rw [List.length_cons, Nat.add_min_add_right, Nat.zero_min, takenEvents_succ,
        takenEvents_zero, List.append_nil]
      exact hstep
  | succ k ih =>
    have hstep := h s xs hs
    rw [takeNth]
    cases xs with
    | nil => exact hstep.bind fun s' hs' => .done hs'
    | cons x xs =>
      rw [List.length_cons, Nat.add_min_add_right, takenEvents_succ]
      exact hstep.bind fun s' hs' => ih hs'

/-- Taking as many items as there are takes them all in order. -/
theorem takeUpTo_spec (h : Yields take event view) {s : σ} {xs : List α} (hs : view s xs) :
    Matches True view (takeUpTo take xs.length s)
      ⟨xs, [], takenEvents event xs.length xs.length⟩ := by
  induction xs generalizing s with
  | nil => exact .done hs
  | cons x xs ih =>
    have hstep := h s (x :: xs) hs
    rw [List.length_cons, takeUpTo, takenEvents_succ]
    exact hstep.bind fun s' hs' => (ih hs').andAnswer (x :: ·)

/-- Taking all items takes them in order. -/
theorem takeAll_spec {e : TwoEnded σ α} (h : Yields take event view) {s : σ} {xs : List α}
    (hs : view s xs) (hlen : e.remaining s = xs.length) :
    Matches True view (e.takeAll take s) ⟨xs, [], takenEvents event xs.length xs.length⟩ := by
  rw [takeAll, hlen]
  exact takeUpTo_spec h hs

namespace Follows

variable {e : TwoEnded σ α} {front back : Nat → List Event} {s : σ} {xs : List α}

/-- Skipping items from the front leaves those behind them. -/
theorem nth_spec (h : e.Follows front back view) (hs : view s xs) (k : Nat) :
    Matches True view (takeNth e.takeFront k s)
      ⟨xs[k]?, xs.drop (min (k + 1) xs.length),
        takenEvents front xs.length (min (k + 1) xs.length)⟩ := by
  rw [← List.drop_eq_drop_min]
  exact takeNth_spec h.takeFront k hs

/-- Skipping items from the back leaves those in front of them. -/
theorem nthBack_spec (h : e.Follows front back view) (hs : view s xs) (k : Nat) :
    Matches True view (takeNth e.takeBack k s)
      ⟨xs.reverse[k]?, xs.take (xs.length - min (k + 1) xs.length),
        takenEvents back xs.length (min (k + 1) xs.length)⟩ := by
  have hreversed : view s xs.reverse.reverse := by rwa [List.reverse_reverse]
  have hback := takeNth_spec h.takeBack k hreversed
  rw [List.drop_eq_drop_min, List.drop_reverse, List.length_reverse] at hback
  have hread := hback.restate
  rwa [List.reverse_reverse] at hread

/-- Taking all items from the back lists them in reverse. -/
theorem restReversed_spec (h : e.Follows front back view) (hs : view s xs) :
    Matches True view (e.takeAll e.takeBack s)
      ⟨xs.reverse, [], takenEvents back xs.length xs.length⟩ := by
  have hreversed : view s xs.reverse.reverse := by rwa [List.reverse_reverse]
  have hback := takeAll_spec (e := e) h.takeBack hreversed
    ((h.remaining s xs hs).trans List.length_reverse.symm)
  rw [List.length_reverse] at hback
  exact hback.restate

/-- Every call is answered as a plain sequence answers it. -/
theorem call_spec (h : e.Follows front back view) (hs : view s xs) (q : Call) :
    Matches True view (e.call q s) (q.outcome front back xs) := by
  have hlen := h.remaining s xs hs
  have hrest := takeAll_spec (e := e) h.takeFront hs hlen
  rw [← List.drop_length (l := xs)] at hrest
  cases q with
  | next =>
    rw [Call.outcome_of_takesBack rfl, Call.reply, List.head?_eq_getElem?]
    exact (h.nth_spec hs 0).andAnswer Reply.item
  | nextBack =>
    rw [Call.outcome_of_takesFront rfl, Call.reply, ← List.head?_reverse, List.head?_eq_getElem?]
    exact (h.nthBack_spec hs 0).andAnswer Reply.item
  | nth k =>
    rw [Call.outcome_of_takesBack rfl]
    exact (h.nth_spec hs k).andAnswer Reply.item
  | nthBack k =>
    rw [Call.outcome_of_takesFront rfl]
    exact (h.nthBack_spec hs k).andAnswer Reply.item
  | count =>
    rw [Call.outcome_of_takesBack rfl]
    exact hrest.andAnswer fun taken => Reply.number taken.length
  | last =>
    rw [Call.outcome_of_takesBack rfl]
    exact hrest.andAnswer fun taken => Reply.item taken.getLast?
  | rest =>
    rw [Call.outcome_of_takesBack rfl]
    exact hrest.andAnswer Reply.items
  | restReversed =>
    rw [Call.outcome_of_takesFront rfl, Call.takesBack, Nat.sub_self, List.take_zero]
    exact (h.restReversed_spec hs).andAnswer Reply.items
  | len =>
    rw [Call.outcome_of_takesBack rfl, Call.reply, ← hlen]
    exact .done hs
  | sizeHint =>
    rw [Call.outcome_of_takesBack rfl, Call.reply, ← hlen]
    exact .done hs

/-- Calls one after the other are answered as a plain sequence answers them. -/
theorem calls_spec (h : e.Follows front back view) (hs : view s xs) (qs : List Call) :
    Matches True view (e.calls qs s) (Call.outcomes front back xs qs) := by
  induction qs generalizing s xs with
  | nil => exact .done hs
  | cons q qs ih =>
    rw [calls]
    exact (h.call_spec hs q).bind fun s' hs' => (ih hs').andAnswer (q.reply xs :: ·)

end Follows

end TwoEnded

end SlotChain

import SlotChain.Proofs.Cursors

/-!
# Private readers of a sequence

What a population of cursors answers is compared with a population of readers, each of which consumes a
copy of the items of its own. A reader remembers what it has taken from either end, so that nothing it
takes can be lost or taken twice. A request to one reader concerns that reader alone.
-/

namespace SlotChain

variable {α : Type} {A : Type → Type} [SlotMap A]

/-- A copy of a sequence that is consumed from both ends. -/
structure Reader (α : Type) where
  /-- The items taken from the front, in the order in which they were taken. -/
  fromFront : List α
  /-- The items not yet taken. -/
  ahead : List α
  /-- The items taken from the back, in the order in which they were taken. -/
  fromBack : List α

namespace Reader

/-- A reader that has taken nothing yet. -/
def start (xs : List α) : Reader α := ⟨[], xs, []⟩

/-- The reader after a call. -/
def after (r : Reader α) (q : Call) : Reader α :=
  let n := r.ahead.length
  { fromFront := r.fromFront ++ r.ahead.take (q.takesFront n)
    ahead := q.left r.ahead
    fromBack := r.fromBack ++ (r.ahead.drop (n - q.takesBack n)).reverse }

/-- The items that a reader has taken from the front, has ahead and has taken from the back. -/
def whole (r : Reader α) : List α := r.fromFront ++ r.ahead ++ r.fromBack.reverse

/-- A reader that has taken nothing yet has everything ahead. -/
theorem whole_start (xs : List α) : (start xs).whole = xs := List.append_nil xs

/-- No call loses an item or takes one twice. -/
theorem whole_after (r : Reader α) (q : Call) : (r.after q).whole = r.whole := by
  have hcut := q.take_left_drop r.ahead
  simp only [whole, after, List.reverse_append, List.reverse_reverse, List.append_assoc]
  conv_rhs => rw [← hcut]
  simp only [List.append_assoc]

/-- Serve one request to a population of readers, each new one over these items. -/
def serve (xs : List α) (rs : Array (Reader α)) :
    CursorRequest → Outcome (Array (Reader α)) (Reply α)
  | .call i q =>
    match rs[i]? with
    | none => ⟨.item none, rs, []⟩
    | some r => ⟨q.reply r.ahead, rs.setIfInBounds i (r.after q), []⟩
  | .copy i =>
    match rs[i]? with
    | none => ⟨.item none, rs, []⟩
    | some r => ⟨.number rs.size, rs.push r, []⟩
  | .fresh => ⟨.number rs.size, rs.push (start xs), []⟩

/-- Serve requests one after the other. -/
def serveAll (xs : List α) : Array (Reader α) → List CursorRequest →
    Outcome (Array (Reader α)) (List (Reply α))
  | rs, [] => ⟨[], rs, []⟩
  | rs, q :: qs =>
    let first := serve xs rs q
    let rest := serveAll xs first.state qs
    ⟨first.answer :: rest.answer, rest.state, first.events ++ rest.events⟩

/-- Reading emits nothing. -/
theorem serve_events (xs : List α) (rs : Array (Reader α)) (q : CursorRequest) :
    (serve xs rs q).events = [] := by
  cases q with
  | call i q => cases hr : rs[i]? <;> simp only [serve, hr]
  | copy i => cases hr : rs[i]? <;> simp only [serve, hr]
  | fresh => rfl

theorem serveAll_events (xs : List α) (rs : Array (Reader α)) (qs : List CursorRequest) :
    (serveAll xs rs qs).events = [] := by
  induction qs generalizing rs with
  | nil => rfl
  | cons q qs ih => rw [serveAll, serve_events, ih, List.append_nil]

/-- A population of cursors over a chain keeps step with a population of readers of its items. -/
structure Tracks (c : Chain α A) (xs : List α) (ks : Array Cursor) (rs : Array (Reader α)) :
    Prop where
  /-- There are as many cursors as readers. -/
  size_eq : ks.size = rs.size
  /-- Each cursor has ahead what its reader has ahead. -/
  reads : ∀ (i : Nat) (k : Cursor) (r : Reader α), ks[i]? = some k → rs[i]? = some r →
    Cursor.Reads c k r.ahead
  /-- No reader has lost an item or taken one twice. -/
  whole : ∀ (i : Nat) (r : Reader α), rs[i]? = some r → r.whole = xs

namespace Tracks

variable {c : Chain α A} {xs : List α} {ks : Array Cursor} {rs : Array (Reader α)}
  {k : Cursor} {r : Reader α}

/-- A cursor and its reader may join the two populations. -/
theorem push (h : Tracks c xs ks rs) (hk : Cursor.Reads c k r.ahead) (hr : r.whole = xs) :
    Tracks c xs (ks.push k) (rs.push r) where
  size_eq := by rw [Array.size_push, Array.size_push, h.size_eq]
  reads := by
    intro j k' r' hk' hr'
    rw [Array.getElem?_push] at hk' hr'
    rw [h.size_eq] at hk'
    split at hk'
    · rename_i hj
      rw [if_pos hj] at hr'
      cases hk'
      cases hr'
      exact hk
    · rename_i hj
      rw [if_neg hj] at hr'
      exact h.reads j k' r' hk' hr'
  whole := by
    intro j r' hr'
    rw [Array.getElem?_push] at hr'
    split at hr'
    · cases hr'
      exact hr
    · exact h.whole j r' hr'

/-- A cursor and its reader may move on together. -/
theorem set (h : Tracks c xs ks rs) (i : Nat) (hk : Cursor.Reads c k r.ahead)
    (hr : r.whole = xs) : Tracks c xs (ks.setIfInBounds i k) (rs.setIfInBounds i r) where
  size_eq := by rw [Array.size_setIfInBounds, Array.size_setIfInBounds, h.size_eq]
  reads := by
    intro j k' r' hk' hr'
    rw [Array.getElem?_setIfInBounds] at hk' hr'
    rw [h.size_eq] at hk'
    split at hk'
    · rename_i hj
      rw [if_pos hj] at hr'
      split at hk'
      · rename_i hlt
        rw [if_pos hlt] at hr'
        cases hk'
        cases hr'
        exact hk
      · cases hk'
    · rename_i hj
      rw [if_neg hj] at hr'
      exact h.reads j k' r' hk' hr'
  whole := by
    intro j r' hr'
    rw [Array.getElem?_setIfInBounds] at hr'
    split at hr'
    · split at hr'
      · cases hr'
        exact hr
      · cases hr'
    · exact h.whole j r' hr'

/-- A number names a cursor exactly if it names a reader. -/
theorem getElem?_eq_none_iff (h : Tracks c xs ks rs) (i : Nat) : ks[i]? = none ↔ rs[i]? = none := by
  rw [Array.getElem?_eq_none_iff, Array.getElem?_eq_none_iff, h.size_eq]

/-- Every reader has a cursor. -/
theorem exists_cursor (h : Tracks c xs ks rs) {i : Nat} (hr : rs[i]? = some r) :
    ∃ k, ks[i]? = some k := by
  refine Option.ne_none_iff_exists'.1 fun hk => ?_
  rw [(h.getElem?_eq_none_iff i).1 hk] at hr
  cases hr

end Tracks

/-- No cursors keep step with no readers. -/
theorem tracks_empty (c : Chain α A) (xs : List α) : Tracks c xs #[] #[] :=
  ⟨rfl, fun i k r hk => by simp at hk, fun i r hr => by simp at hr⟩

/-- One cursor over a whole chain keeps step with one reader of its items. -/
theorem tracks_start {c : Chain α A} {xs : List α} (h : c.Holds xs) :
    Tracks c xs #[Cursor.ofChain c] #[start xs] :=
  (tracks_empty c xs).push (r := start xs) (Cursor.reads_ofChain h) (whole_start xs)

end Reader

namespace CursorRequest

variable {c : Chain α A} {xs : List α}

/-- A request to cursors is served as readers serve it. -/
theorem serve_spec (hc : c.Holds xs) {ks : Array Cursor} {rs : Array (Reader α)}
    (h : Reader.Tracks c xs ks rs) (q : CursorRequest) :
    Matches True (Reader.Tracks c xs) (q.serve c ks) (Reader.serve xs rs q) := by
  cases q with
  | call i q =>
    cases hr : rs[i]? with
    | none =>
      have hk := (h.getElem?_eq_none_iff i).2 hr
      simp only [serve, Reader.serve, hk, hr]
      exact .done h
    | some r =>
      obtain ⟨k, hk⟩ := h.exists_cursor hr
      obtain ⟨k', hcall, hk'⟩ :=
        ((Cursor.follows c).call_spec (h.reads i k r hk hr) q).completes trivial
      simp only [serve, Reader.serve, hk, hr, hcall, Call.outcome, Call.events_noEvent]
      refine .done (h.set i (r := r.after q) hk' ?_)
      rw [Reader.whole_after, h.whole i r hr]
  | copy i =>
    cases hr : rs[i]? with
    | none =>
      have hk := (h.getElem?_eq_none_iff i).2 hr
      simp only [serve, Reader.serve, hk, hr]
      exact .done h
    | some r =>
      obtain ⟨k, hk⟩ := h.exists_cursor hr
      simp only [serve, Reader.serve, hk, hr, h.size_eq]
      exact .done (h.push (h.reads i k r hk hr) (h.whole i r hr))
  | fresh =>
    simp only [serve, Reader.serve, h.size_eq]
    exact .done (h.push (r := .start xs) (Cursor.reads_ofChain hc) (Reader.whole_start xs))

/-- Requests to a population of cursors are served as readers serve them. -/
theorem serveAll_spec (hc : c.Holds xs) {ks : Array Cursor} {rs : Array (Reader α)}
    (h : Reader.Tracks c xs ks rs) (qs : List CursorRequest) :
    Matches True (Reader.Tracks c xs) (serveAll c qs ks) (Reader.serveAll xs rs qs) := by
  induction qs generalizing ks rs with
  | nil => exact .done h
  | cons q qs ih =>
    have hfirst := serve_spec hc h q
    rw [serveAll]
    exact hfirst.bind fun ks' hks' => (ih hks').andAnswer ((Reader.serve xs rs q).answer :: ·)

end CursorRequest

end SlotChain

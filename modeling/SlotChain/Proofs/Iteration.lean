import SlotChain.Proofs.Reachable

/-!
# Reading and draining reachable chains

Cursors over one reachable chain do not get in each other's way: each consumes a sequence of its own.
Draining a reachable chain instead gives the same answers call by call, although it takes the chain apart
on the way. What is left stays well formed, and the events tell how each item left it.
-/

namespace SlotChain

variable {α : Type} {A : Type → Type} [SlotMap A]

/-- A request leaves every cursor alone but the one that it calls. -/
theorem CursorRequest.serve_frame {c : Chain α A} {q : CursorRequest} {ks : Array Cursor}
    {o : Outcome (Array Cursor) (Reply α)} (h : q.serve c ks = .ok o) {j : Nat} {k : Cursor}
    (hk : ks[j]? = some k) (hother : ∀ call, q ≠ .call j call) : o.state[j]? = some k := by
  have hlt : j < ks.size := (Array.getElem?_eq_some_iff.1 hk).1
  cases q with
  | call i q =>
    have hne : i ≠ j := fun e => hother q (e ▸ rfl)
    simp only [serve] at h
    split at h
    · cases h
      exact hk
    · rename_i k' hk'
      cases hcall : (Cursor.source c).call q k' with
      | error fault =>
        rw [hcall] at h
        cases h
      | ok p =>
        rw [hcall] at h
        cases h
        rw [Array.getElem?_setIfInBounds_ne hne]
        exact hk
  | copy i =>
    simp only [serve] at h
    split at h
    · cases h
      exact hk
    · cases h
      rw [Array.getElem?_push, if_neg (Nat.ne_of_lt hlt)]
      exact hk
  | fresh =>
    cases h
    rw [Array.getElem?_push, if_neg (Nat.ne_of_lt hlt)]
    exact hk

/-- A cursor is indistinguishable from a reader of some items, now and in every later call. -/
structure Reader.Mirrors (r : Reader α) (c : Chain α A) (xs : List α) (k : Cursor) : Prop where
  /-- What was taken from the front, what is ahead and what was taken from the back is the whole. -/
  whole : r.fromFront ++ r.ahead ++ r.fromBack.reverse = xs
  /-- The cursor counts what is ahead. -/
  remaining : k.remaining = r.ahead.length
  /-- Later calls are answered from what is ahead. -/
  later : ∀ calls, ∃ k', (Cursor.source c).calls calls k = .ok ⟨Call.replies r.ahead calls, k', []⟩
  /-- With nothing ahead, both ends yield nothing, and the cursor stays as it is. -/
  exhausted : r.ahead = [] →
    Cursor.next c k = .ok ⟨none, k, []⟩ ∧ Cursor.nextBack c k = .ok ⟨none, k, []⟩

/-- Populations that keep step mirror each other one by one. -/
theorem Reader.Tracks.mirrors {c : Chain α A} {xs : List α} {ks : Array Cursor}
    {rs : Array (Reader α)} (h : Reader.Tracks c xs ks rs) {i : Nat} {k : Cursor} {r : Reader α}
    (hk : ks[i]? = some k) (hr : rs[i]? = some r) : r.Mirrors c xs k where
  whole := h.whole i r hr
  remaining := (h.reads i k r hk hr).remaining_eq
  later := by
    intro calls
    obtain ⟨k', hcalls, -⟩ :=
      ((Cursor.follows c).calls_spec (h.reads i k r hk hr) calls).completes trivial
    refine ⟨k', ?_⟩
    rw [hcalls, Call.outcomes, Call.eventsAll_noEvent]
  exhausted := by
    intro hnil
    have hzero : k.remaining = 0 := by
      rw [(h.reads i k r hk hr).remaining_eq, hnil, List.length_nil]
    exact ⟨Cursor.next_of_remaining c hzero, Cursor.nextBack_of_remaining c hzero⟩

namespace Chain.Reachable

variable [Item α] {c : Chain α A}

/-- Cursors over a reachable chain answer like readers, each with a copy of the items of its own. -/
theorem cursors_private (h : c.Reachable) :
    ∃ xs, c.items = .ok xs ∧ ∀ requests, ∃ ks : Array Cursor,
      CursorRequest.serveAll c requests #[] =
        .ok ⟨(Reader.serveAll xs #[] requests).answer, ks, []⟩ ∧
      ks.size = (Reader.serveAll xs #[] requests).state.size ∧
      (∀ (i : Nat) (k : Cursor) (r : Reader α), ks[i]? = some k →
        (Reader.serveAll xs #[] requests).state[i]? = some r → r.Mirrors c xs k) ∧
      ∀ (q : CursorRequest) o, q.serve c ks = .ok o →
        ∀ (j : Nat) (k : Cursor), ks[j]? = some k → (∀ call, q ≠ .call j call) →
          o.state[j]? = some k := by
  obtain ⟨xs, hxs⟩ := h.holds
  refine ⟨xs, hxs.items_eq, fun requests => ?_⟩
  obtain ⟨ks, hserve, htracks⟩ :=
    (CursorRequest.serveAll_spec hxs (Reader.tracks_empty c xs) requests).completes trivial
  rw [Reader.serveAll_events] at hserve
  exact ⟨ks, hserve, htracks.size_eq, fun i k r hk hr => htracks.mirrors hk hr,
    fun q o hq j k hk hother => CursorRequest.serve_frame hq hk hother⟩

/-- Three cursors over two numbers, of which the last copies the first after a call. What was taken from
the first is still ahead of the second. -/
theorem cursors_private_numbers :
    ∃ (c : Chain Int) (ks : Array Cursor),
      ListStep.performAll [.append 1, .append 2, .deleteHead, .prepend 3] .empty =
          (c, .ok [.done, .done, .item (some 1), .done]) ∧
        c.Reachable ∧
        CursorRequest.serveAll c
            [.fresh, .fresh, .call 0 .nextBack, .copy 0, .call 1 .rest, .call 2 (.nth 0)] #[] =
          .ok ⟨[.number 0, .number 1, .item (some 2), .number 2, .items [3, 2], .item (some 3)], ks,
            []⟩ := by
  obtain ⟨c, hrun, hreach, hc⟩ :=
    of_steps (A := Arena) [.append 1, .append 2, .deleteHead, .prepend (3 : Int)] (by decide)
  obtain ⟨xs, hxs, hserve⟩ := cursors_private hreach
  rw [hc.items_eq] at hxs
  cases hxs
  obtain ⟨ks, hks, -⟩ :=
    hserve [.fresh, .fresh, .call 0 .nextBack, .copy 0, .call 1 .rest, .call 2 (.nth 0)]
  exact ⟨c, ks, hrun, hreach, hks⟩

/-- Calls to a drained chain and to a cursor over the same chain have the same answers. The chain is taken
apart from both ends, and what is left of it is well formed and holds the items not yet taken. The
events tell how the others left; the cursor emits none. -/
theorem drain_agrees (h : c.Reachable) :
    ∃ xs, c.items = .ok xs ∧ ∀ calls, ∃ (d : Chain α A) (k : Cursor),
      Chain.drain.calls calls c = .ok ⟨Call.replies xs calls, d,
        Call.eventsAll (deletion .deleteHead) (deletion .deleteTail) xs calls⟩ ∧
      (Cursor.source c).calls calls (Cursor.ofChain c) = .ok ⟨Call.replies xs calls, k, []⟩ ∧
      (∃ ts, d.WellFormed ts) ∧ d.items = .ok (Call.leftAll xs calls) ∧ k.remaining = d.len ∧
      Call.leftAll xs calls <:+: xs ∧
      Removes xs (Call.eventsAll (deletion .deleteHead) (deletion .deleteTail) xs calls)
        (Call.leftAll xs calls) := by
  obtain ⟨xs, hxs⟩ := h.holds
  refine ⟨xs, hxs.items_eq, fun calls => ?_⟩
  obtain ⟨d, hdrain, hd⟩ := (drain_follows.calls_spec hxs calls).completes trivial
  obtain ⟨k, hcursor, hk⟩ :=
    ((Cursor.follows c).calls_spec (Cursor.reads_ofChain hxs) calls).completes trivial
  obtain ⟨ts, hts, -⟩ := hd.intact.linked
  refine ⟨d, k, hdrain, ?_, ⟨ts, hts⟩, hd.items_eq, ?_, Call.leftAll_segment xs calls,
    removes_calls xs calls⟩
  · rw [hcursor, Call.outcomes, Call.eventsAll_noEvent]
  · exact hk.remaining_eq.trans hd.len_eq.symm

/-- Two numbers, drained and read beyond their end. -/
theorem drain_agrees_numbers :
    ∃ (c d : Chain Int) (k : Cursor),
      ListStep.performAll [.append 1, .append 2, .deleteHead, .prepend 3] .empty =
          (c, .ok [.done, .done, .item (some 1), .done]) ∧
        c.Reachable ∧
        Chain.drain.calls [.nextBack, .nth 3] c =
          .ok ⟨[.item (some 2), .item none], d, [.mutated .deleteTail 1, .mutated .deleteHead 0]⟩ ∧
        (Cursor.source c).calls [.nextBack, .nth 3] (Cursor.ofChain c) =
          .ok ⟨[.item (some 2), .item none], k, []⟩ := by
  obtain ⟨c, hrun, hreach, hc⟩ :=
    of_steps (A := Arena) [.append 1, .append 2, .deleteHead, .prepend (3 : Int)] (by decide)
  obtain ⟨xs, hxs, hcalls⟩ := drain_agrees hreach
  rw [hc.items_eq] at hxs
  cases hxs
  obtain ⟨d, k, hdrain, hread, -⟩ := hcalls [.nextBack, .nth 3]
  exact ⟨c, d, k, hrun, hreach, hdrain, hread⟩

end Chain.Reachable

end SlotChain

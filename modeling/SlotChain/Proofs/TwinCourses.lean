import SlotChain.Proofs.Likeness
import SlotChain.Proofs.Mirroring

/-!
# Twin courses

Each step at one end of a chain has a twin at the other. Two courses of twin steps, both on a new chain,
are answered alike all the way, and the two chains mirror each other after each of the steps: so the one
holds the items of the other in reverse. The same goes for calls to cursors over the two chains and for
draining them. Only the call for the last item has no twin, but it can be put in another way.
-/

namespace SlotChain

variable {α : Type} {A : Type → Type} [SlotMap A] {σ τ β γ β' γ' : Type}

/-! ### Twins -/

/-- Two calls do the same at opposite ends. -/
inductive Call.Twin : Call → Call → Prop
  | next : Twin .next .nextBack
  | nextBack : Twin .nextBack .next
  | nth (k : Nat) : Twin (.nth k) (.nthBack k)
  | nthBack (k : Nat) : Twin (.nthBack k) (.nth k)
  | count : Twin .count .count
  | rest : Twin .rest .restReversed
  | restReversed : Twin .restReversed .rest
  | len : Twin .len .len
  | sizeHint : Twin .sizeHint .sizeHint

/-- Two requests put twin calls to the cursors of the same number, or add the same cursor. -/
inductive CursorRequest.Twin : CursorRequest → CursorRequest → Prop
  | call (i : Nat) {q q' : Call} (h : q.Twin q') : Twin (.call i q) (.call i q')
  | copy (i : Nat) : Twin (.copy i) (.copy i)
  | fresh : Twin .fresh .fresh

/-- Two questions ask for the same at opposite ends. -/
inductive Query.Twin : Query → Query → Prop
  | front : Twin .front .back
  | back : Twin .back .front
  | len : Twin .len .len
  | isEmpty : Twin .isEmpty .isEmpty
  | items : Twin .items .itemsReversed
  | itemsReversed : Twin .itemsReversed .items
  | cursors {requests requests' : List CursorRequest}
    (h : List.Forall₂ CursorRequest.Twin requests requests') :
    Twin (.cursors requests) (.cursors requests')

/-- Two steps do the same at opposite ends. -/
inductive ListStep.Twin : ListStep α → ListStep α → Prop
  | build (capacity : Nat) : Twin (.build capacity) (.build capacity)
  | prepend (item : α) : Twin (.prepend item) (.append item)
  | append (item : α) : Twin (.append item) (.prepend item)
  | clear : Twin .clear .clear
  | deleteHead : Twin .deleteHead .deleteTail
  | deleteTail : Twin .deleteTail .deleteHead
  | drain {calls calls' : List Call} (h : List.Forall₂ Call.Twin calls calls') :
    Twin (.drain calls) (.drain calls')
  | ask {query query' : Query} (h : query.Twin query') : Twin (.ask query) (.ask query')

/-- The answers and faults that a course shows, without the events. -/
def Course.answers (r : Course α A) : List (Except Fault (Answer α)) :=
  r.seen.map fun shown => shown.map Prod.fst

/-! ### Twin calls to two sources -/

/-- Actions that run in parallel one by one run in parallel one after the other. -/
theorem Parallel.andThen {answers : β → β' → Prop} {states : σ → τ → Prop} {answers' : γ → γ' → Prop}
    {x : Act σ β} {y : Act τ β'} {f : β → Act σ γ} {g : β' → Act τ γ'} {s : σ} {t : τ}
    (h : Parallel (Outcome.Reflects answers states) (x s) (y t))
    (hfg : ∀ b b' s t, answers b b' → states s t →
      Parallel (Outcome.Reflects answers' states) (f b s) (g b' t)) :
    Parallel (Outcome.Reflects answers' states) ((x >>= f) s) ((y >>= g) t) := by
  generalize hx : x s = r, hy : y t = r' at h
  cases h with
  | stopped fault =>
    rw [Act.bind_error hx, Act.bind_error hy]
    exact .stopped fault
  | completed h =>
    have hrest := hfg _ _ _ _ h.answer h.state
    generalize hf : f _ _ = r, hg : g _ _ = r' at hrest
    cases hrest with
    | stopped fault =>
      rw [Act.bind_error_right hx hf, Act.bind_error_right hy hg]
      exact .stopped fault
    | completed h' =>
      rw [Act.bind_ok hx hf, Act.bind_ok hy hg]
      exact .completed ⟨h'.answer, h'.state⟩

/-- Answering last adds nothing but the answer. -/
theorem Parallel.andAnswer {answers : β → β' → Prop} {states : σ → τ → Prop} {x : Act σ β}
    {y : Act τ β'} {s : σ} {t : τ} (h : Parallel (Outcome.Reflects answers states) (x s) (y t))
    {f : β → γ} {g : β' → γ} (hfg : ∀ b b', answers b b' → f b = g b') :
    Parallel (Outcome.Reflects Eq states) ((do let b ← x; return f b : Act σ γ) s)
      ((do let b ← y; return g b : Act τ γ) t) :=
  h.andThen fun b b' _ _ hanswer hstate => .completed ⟨hfg b b' hanswer, hstate⟩

/-- Of two parallel actions that are completed, the answers are the same and the states related. -/
theorem Parallel.of_ok {states : σ → τ → Prop} {x : Except Fault (Outcome σ β)}
    {y : Except Fault (Outcome τ β)} (h : Parallel (Outcome.Reflects Eq states) x y) {b b' : β} {s : σ}
    {t : τ} {es es' : List Event} (hx : x = .ok ⟨b, s, es⟩) (hy : y = .ok ⟨b', t, es'⟩) :
    b = b' ∧ states s t := by
  subst hx hy
  cases h with
  | completed h => exact ⟨h.answer, h.state⟩

namespace TwoEnded

/-- Two steps run in parallel from related states. -/
def InParallel (states : σ → τ → Prop) (take : Act σ (Option α)) (take' : Act τ (Option α)) : Prop :=
  ∀ s t, states s t → Parallel (Outcome.Reflects Eq states) (take s) (take' t)

/-- Two sources face each other: what the one yields at one end, the other yields at the other end. -/
structure Faces (e : TwoEnded σ α) (e' : TwoEnded τ α) (states : σ → τ → Prop) : Prop where
  /-- The front of the one is the back of the other. -/
  front : InParallel states e.takeFront e'.takeBack
  /-- The back of the one is the front of the other. -/
  back : InParallel states e.takeBack e'.takeFront
  /-- They have as many items left. -/
  remaining : ∀ s t, states s t → e.remaining s = e'.remaining t
  /-- Used up from the same end, they yield as many items. -/
  count : ∀ s t, states s t → Parallel (Outcome.Reflects (fun xs ys => xs.length = ys.length) states)
    (e.takeAll e.takeFront s) (e'.takeAll e'.takeFront t)

variable {states : σ → τ → Prop} {take : Act σ (Option α)} {take' : Act τ (Option α)} {s : σ} {t : τ}

/-- Items are skipped in parallel. -/
theorem InParallel.takeNth (h : InParallel states take take') (k : Nat) :
    InParallel states (takeNth take k) (takeNth take' k) := by
  induction k with
  | zero => exact h
  | succ k ih =>
    intro s t hst
    refine (h s t hst).andThen fun b b' s t hb hst => ?_
    subst hb
    cases b with
    | none => exact .completed ⟨rfl, hst⟩
    | some x => exact ih s t hst

/-- Items are collected in parallel. -/
theorem InParallel.takeUpTo (h : InParallel states take take') (n : Nat) (hst : states s t) :
    Parallel (Outcome.Reflects Eq states) (takeUpTo take n s) (takeUpTo take' n t) := by
  induction n generalizing s t with
  | zero => exact .completed ⟨rfl, hst⟩
  | succ n ih =>
    refine (h s t hst).andThen fun b b' s t hb hst => ?_
    subst hb
    cases b with
    | none => exact .completed ⟨rfl, hst⟩
    | some x => exact (ih hst).andAnswer fun _ _ => congrArg (x :: ·)

namespace Faces

variable {e : TwoEnded σ α} {e' : TwoEnded τ α}

/-- All items are collected in parallel. -/
theorem takeAll (h : e.Faces e' states) (htake : InParallel states take take') (hst : states s t) :
    Parallel (Outcome.Reflects Eq states) (e.takeAll take s) (e'.takeAll take' t) := by
  rw [TwoEnded.takeAll, TwoEnded.takeAll, ← h.remaining s t hst]
  exact htake.takeUpTo _ hst

/-- Twin calls are answered in parallel. -/
theorem call (h : e.Faces e' states) {q q' : Call} (hq : q.Twin q') (hst : states s t) :
    Parallel (Outcome.Reflects Eq states) (e.call q s) (e'.call q' t) := by
  cases hq with
  | next => exact (h.front s t hst).andAnswer fun _ _ => congrArg Reply.item
  | nextBack => exact (h.back s t hst).andAnswer fun _ _ => congrArg Reply.item
  | nth k => exact (h.front.takeNth k s t hst).andAnswer fun _ _ => congrArg Reply.item
  | nthBack k => exact (h.back.takeNth k s t hst).andAnswer fun _ _ => congrArg Reply.item
  | count => exact (h.count s t hst).andAnswer fun _ _ => congrArg Reply.number
  | rest => exact (h.takeAll h.front hst).andAnswer fun _ _ => congrArg Reply.items
  | restReversed => exact (h.takeAll h.back hst).andAnswer fun _ _ => congrArg Reply.items
  | len => exact .completed ⟨congrArg Reply.number (h.remaining s t hst), hst⟩
  | sizeHint =>
    exact .completed ⟨congrArg (fun n => Reply.bounds n n) (h.remaining s t hst), hst⟩

/-- Twin calls one after the other are answered in parallel. -/
theorem calls (h : e.Faces e' states) {qs qs' : List Call} (hqs : List.Forall₂ Call.Twin qs qs')
    (hst : states s t) :
    Parallel (Outcome.Reflects Eq states) (e.calls qs s) (e'.calls qs' t) := by
  induction hqs generalizing s t with
  | nil => exact .completed ⟨rfl, hst⟩
  | cons hq _ ih =>
    refine (h.call hq hst).andThen fun b b' s t hb hst => ?_
    subst hb
    exact (ih hst).andAnswer fun _ _ => congrArg (b :: ·)

end Faces

namespace Follows

variable {e : TwoEnded σ α} {e' : TwoEnded τ α} {front back front' back' : Nat → List Event}
  {view : σ → List α → Prop} {view' : τ → List α → Prop}

/-- What two steps pop does not depend on the events that they emit. -/
theorem popped_parallel {take : Act σ (Option α)} {take' : Act τ (Option α)}
    {event event' : Nat → List Event} (h : Yields take event view) (h' : Yields take' event' view')
    {s : σ} {t : τ} {xs : List α} (hs : view s xs) (ht : view' t xs) :
    Parallel (Outcome.Reflects Eq fun s t => ∃ xs, view s xs ∧ view' t xs) (take s) (take' t) := by
  obtain ⟨s', htake, hs'⟩ := (h s xs hs).completes trivial
  obtain ⟨t', htake', ht'⟩ := (h' t xs ht).completes trivial
  rw [htake, htake']
  cases xs with
  | nil => exact .completed ⟨rfl, _, hs', ht'⟩
  | cons x xs => exact .completed ⟨rfl, _, hs', ht'⟩

/-- Two sources face each other if the one stands for the items of the other in reverse. -/
theorem faces (h : e.Follows front back view) (h' : e'.Follows front' back' view') :
    e.Faces e' fun s t => ∃ xs, view s xs ∧ view' t xs.reverse where
  front := by
    rintro s t ⟨xs, hs, ht⟩
    exact popped_parallel h.takeFront h'.takeBack hs ht
  back := by
    rintro s t ⟨xs, hs, ht⟩
    rw [← List.reverse_reverse xs] at hs
    refine (popped_parallel h.takeBack h'.takeFront hs ht).imp fun o p _ hpopped => ?_
    obtain ⟨ys, hs', ht'⟩ := hpopped.state
    refine ⟨hpopped.answer, ys.reverse, hs', ?_⟩
    rwa [List.reverse_reverse]
  remaining := by
    rintro s t ⟨xs, hs, ht⟩
    rw [h.remaining s xs hs, h'.remaining t _ ht, List.length_reverse]
  count := by
    rintro s t ⟨xs, hs, ht⟩
    obtain ⟨s', hall, hs'⟩ :=
      (takeAll_spec h.takeFront hs (h.remaining s xs hs)).completes trivial
    obtain ⟨t', hall', ht'⟩ :=
      (takeAll_spec h'.takeFront ht (h'.remaining t _ ht)).completes trivial
    rw [hall, hall']
    exact .completed ⟨List.length_reverse.symm, [], hs', ht'⟩

/-- What is last for the one is next for the other. -/
theorem last_eq_next (h : e.Follows front back view) (h' : e'.Follows front' back' view') {s : σ}
    {t : τ} {xs : List α} (hs : view s xs) (ht : view' t xs.reverse) :
    (e.call .last s).map Outcome.answer = (e'.call .next t).map Outcome.answer := by
  obtain ⟨s', hlast, -⟩ := (h.call_spec hs .last).completes trivial
  obtain ⟨t', hnext, -⟩ := (h'.call_spec ht .next).completes trivial
  rw [hlast, hnext]
  exact congrArg (Except.ok ∘ Reply.item) List.head?_reverse.symm

end Follows

end TwoEnded

/-! ### Cursors over both chains -/

namespace Cursor

/-- Two cursors face each other: the one has the items ahead that the other has, in reverse. -/
def Faces (c d : Chain α A) (k k' : Cursor) : Prop :=
  ∃ xs, Reads c k xs ∧ Reads d k' xs.reverse

/-- Two populations are made up of pairs of cursors that face each other. -/
def AllFace (c d : Chain α A) (ks ks' : Array Cursor) : Prop :=
  ∃ pairs : Array (Cursor × Cursor), ks = pairs.map Prod.fst ∧ ks' = pairs.map Prod.snd ∧
    ∀ p ∈ pairs, Faces c d p.1 p.2

variable {c d : Chain α A} {ks ks' : Array Cursor} {k k' : Cursor}

/-- No cursors face no cursors. -/
theorem allFace_empty (c d : Chain α A) : AllFace c d #[] #[] :=
  ⟨#[], Array.map_empty.symm, Array.map_empty.symm, fun p hp => absurd hp (Array.not_mem_empty p)⟩

/-- A pair may join two populations. -/
theorem AllFace.push (h : AllFace c d ks ks') (hk : Faces c d k k') :
    AllFace c d (ks.push k) (ks'.push k') := by
  obtain ⟨pairs, rfl, rfl, hpairs⟩ := h
  refine ⟨pairs.push (k, k'), ?_, ?_, fun p hp => ?_⟩
  · rw [Array.map_push]
  · rw [Array.map_push]
  · rcases Array.mem_push.1 hp with hp | rfl
    · exact hpairs p hp
    · exact hk

/-- A pair may move on together. -/
theorem AllFace.set (h : AllFace c d ks ks') (i : Nat) (hk : Faces c d k k') :
    AllFace c d (ks.setIfInBounds i k) (ks'.setIfInBounds i k') := by
  obtain ⟨pairs, rfl, rfl, hpairs⟩ := h
  refine ⟨pairs.setIfInBounds i (k, k'), ?_, ?_, fun p hp => ?_⟩
  · rw [Array.map_setIfInBounds]
  · rw [Array.map_setIfInBounds]
  · rcases Array.mem_or_eq_of_mem_setIfInBounds hp with hp | rfl
    · exact hpairs p hp
    · exact hk

/-- New cursors face each other. -/
theorem faces_ofChain {xs : List α} (hc : c.Holds xs) (hd : d.Holds xs.reverse) :
    Faces c d (ofChain c) (ofChain d) :=
  ⟨xs, reads_ofChain hc, reads_ofChain hd⟩

end Cursor

namespace CursorRequest

variable {c d : Chain α A} {xs : List α}

/-- Twin requests are served in parallel. -/
theorem serve_parallel (hc : c.Holds xs) (hd : d.Holds xs.reverse) {q q' : CursorRequest}
    (hq : q.Twin q') {ks ks' : Array Cursor} (hks : Cursor.AllFace c d ks ks') :
    Parallel (Outcome.Reflects Eq (Cursor.AllFace c d)) (q.serve c ks) (q'.serve d ks') := by
  obtain ⟨pairs, rfl, rfl, hpairs⟩ := id hks
  cases hq with
  | call i hq =>
    simp only [serve, Array.getElem?_map]
    cases hi : pairs[i]? with
    | none => exact .completed ⟨rfl, hks⟩
    | some p =>
      have hp := hpairs p (Array.mem_of_getElem? hi)
      exact (((Cursor.follows c).faces (Cursor.follows d)).call hq hp).map fun o o' ho =>
        ⟨ho.answer, hks.set i ho.state⟩
  | copy i =>
    simp only [serve, Array.getElem?_map]
    cases hi : pairs[i]? with
    | none => exact .completed ⟨rfl, hks⟩
    | some p =>
      refine .completed ⟨?_, hks.push (hpairs p (Array.mem_of_getElem? hi))⟩
      simp only [Array.size_map]
  | fresh =>
    refine .completed ⟨?_, hks.push (Cursor.faces_ofChain hc hd)⟩
    simp only [Array.size_map]

/-- Twin requests one after the other are served in parallel. -/
theorem serveAll_parallel (hc : c.Holds xs) (hd : d.Holds xs.reverse) {qs qs' : List CursorRequest}
    (hqs : List.Forall₂ Twin qs qs') {ks ks' : Array Cursor} (hks : Cursor.AllFace c d ks ks') :
    Parallel (Outcome.Reflects Eq (Cursor.AllFace c d)) (serveAll c qs ks) (serveAll d qs' ks') := by
  induction hqs generalizing ks ks' with
  | nil => exact .completed ⟨rfl, hks⟩
  | cons hq _ ih =>
    refine (serve_parallel hc hd hq hks).andThen fun b b' ks ks' hb hks => ?_
    subst hb
    exact (ih hks).andAnswer fun _ _ => congrArg (b :: ·)

/-- New cursors over both chains have the same replies to twin requests, and face each other all the
way. -/
theorem serveAll_twins (hc : c.Holds xs) (hd : d.Holds xs.reverse) {qs qs' : List CursorRequest}
    (hqs : List.Forall₂ Twin qs qs') :
    ∃ replies ks ks', serveAll c qs #[] = .ok ⟨replies, ks, []⟩ ∧
      serveAll d qs' #[] = .ok ⟨replies, ks', []⟩ ∧ Cursor.AllFace c d ks ks' := by
  obtain ⟨ks, hserve, -⟩ := (serveAll_spec hc (Reader.tracks_empty c xs) qs).completes trivial
  obtain ⟨ks', hserve', -⟩ := (serveAll_spec hd (Reader.tracks_empty d _) qs').completes trivial
  obtain ⟨hreplies, hface⟩ :=
    (serveAll_parallel hc hd hqs (Cursor.allFace_empty c d)).of_ok hserve hserve'
  rw [Reader.serveAll_events] at hserve hserve'
  rw [← hreplies] at hserve'
  exact ⟨_, ks, ks', hserve, hserve', hface⟩

end CursorRequest

namespace Chain

/-! ### Draining both chains -/

section

variable [BlindSlotMap A] {c d : Chain α A}

/-- Two chains that are drained from opposite ends. Once they are empty, it does not matter any more which
slots their arenas would choose next. -/
structure DrainedAlike (c d : Chain α A) : Prop where
  /-- They mirror each other. -/
  links : c.Mirrors d
  /-- They are in good order. -/
  holds : ∃ xs, c.Holds xs
  /-- As long as they are not empty, they are twins. -/
  twins : c.len ≠ 0 → c.Twins d

/-- Twins can be drained alike. -/
theorem Twins.drainedAlike (h : c.Twins d) {xs : List α} (hc : c.Holds xs) : c.DrainedAlike d :=
  ⟨h.toMirrors, ⟨xs, hc⟩, fun _ => h⟩

/-- A step at one end of a chain runs in parallel with one at the other end of its image, if it does so
for twins, and leaves empty chains alone. -/
theorem DrainedAlike.inParallel {take take' : Act (Chain α A) (Option α)}
    (htwins : ∀ c d : Chain α A, c.Twins d → Parallel (Outcome.Reflects Eq Twins) (take c) (take' d))
    (hholds : ∀ (c : Chain α A) xs o, c.Holds xs → take c = .ok o → ∃ ys, o.state.Holds ys)
    (hempty : ∀ c : Chain α A, c.Holds [] → take c = .ok ⟨none, c, []⟩)
    (hempty' : ∀ c : Chain α A, c.Holds [] → take' c = .ok ⟨none, c, []⟩) :
    TwoEnded.InParallel DrainedAlike take take' := by
  intro c d h
  obtain ⟨xs, hc⟩ := h.holds
  cases xs with
  | nil =>
    rw [hempty c hc, hempty' d (h.links.holds hc)]
    exact .completed ⟨rfl, h⟩
  | cons x xs =>
    have hlen : c.len ≠ 0 := by
      rw [hc.len_eq]
      exact Nat.succ_ne_zero _
    refine (htwins c d (h.twins hlen)).imp fun o p ho houtcome => ⟨houtcome.answer, ?_⟩
    obtain ⟨ys, hys⟩ := hholds c _ o hc ho
    exact houtcome.state.drainedAlike hys

/-- Two drained chains face each other. -/
theorem drain_faces :
    (drain : TwoEnded (Chain α A) α).Faces drain DrainedAlike where
  front := DrainedAlike.inParallel (fun c d h => h.deleteHead)
    (fun c xs o hc ho => ⟨_, (hc.deleteHead.of_ok ho).2.2⟩) (fun c hc => hc.deleteHead_nil)
    (fun c hc => hc.deleteTail_nil)
  back := DrainedAlike.inParallel (fun c d h => h.deleteTail)
    (fun c xs o hc ho => ⟨_, (hc.deleteTail.of_ok ho).2.2⟩) (fun c hc => hc.deleteTail_nil)
    (fun c hc => hc.deleteHead_nil)
  remaining c d h := h.links.len.symm
  count := by
    intro c d h
    obtain ⟨xs, hc⟩ := h.holds
    have hd := h.links.holds hc
    obtain ⟨c', hall, hc'⟩ :=
      (TwoEnded.takeAll_spec (e := drain) drain_follows.takeFront hc hc.len_eq).completes trivial
    obtain ⟨d', hall', hd'⟩ :=
      (TwoEnded.takeAll_spec (e := drain) drain_follows.takeFront hd hd.len_eq).completes trivial
    rw [hall, hall']
    exact .completed ⟨List.length_reverse.symm, .of_holds_nil hc' hd', ⟨[], hc'⟩,
      fun hlen => absurd hc'.len_eq hlen⟩

/-! ### Opposite chains -/

/-- A chain is the opposite of another, however the two are looked at. -/
structure Opposes (c d : Chain α A) (xs : List α) : Prop where
  /-- The same slots hold the same cells, with `prev` and `next` exchanged, and head and tail are exchanged
  as well. -/
  links : c.Mirrors d
  /-- These are the items of the one. -/
  items : c.items = .ok xs
  /-- The other has them in reverse. -/
  opposite : d.items = .ok xs.reverse
  /-- Twin requests to cursors over both have the same replies, and what is then last for a cursor of the
  one is next for that of the other. -/
  cursors : ∀ {requests requests' : List CursorRequest},
    List.Forall₂ CursorRequest.Twin requests requests' →
    ∃ replies ks ks', CursorRequest.serveAll c requests #[] = .ok ⟨replies, ks, []⟩ ∧
      CursorRequest.serveAll d requests' #[] = .ok ⟨replies, ks', []⟩ ∧ ks.size = ks'.size ∧
      ∀ (i : Nat) (k k' : Cursor), ks[i]? = some k → ks'[i]? = some k' →
        ((Cursor.source c).call .last k).map Outcome.answer =
          ((Cursor.source d).call .next k').map Outcome.answer
  /-- Twin calls to both as they are drained have the same replies, and what they leave is opposite
  again. -/
  drains : ∀ {calls calls' : List Call}, List.Forall₂ Call.Twin calls calls' →
    ∃ replies c' d' es es', drain.calls calls c = .ok ⟨replies, c', es⟩ ∧
      drain.calls calls' d = .ok ⟨replies, d', es'⟩ ∧ c'.Mirrors d' ∧
      (∃ ys, c'.items = .ok ys ∧ d'.items = .ok ys.reverse) ∧
      (drain.call .last c').map Outcome.answer = (drain.call .next d').map Outcome.answer

/-- Twins are opposites of each other. -/
theorem Twins.opposes (h : c.Twins d) {xs : List α} (hc : c.Holds xs) : c.Opposes d xs where
  links := h.toMirrors
  items := hc.items_eq
  opposite := (h.holds hc).items_eq
  cursors {requests requests'} hrequests := by
    obtain ⟨replies, ks, ks', hserve, hserve', pairs, rfl, rfl, hpairs⟩ :=
      CursorRequest.serveAll_twins hc (h.holds hc) hrequests
    refine ⟨replies, _, _, hserve, hserve', ?_, fun i k k' hk hk' => ?_⟩
    · rw [Array.size_map, Array.size_map]
    · rw [Array.getElem?_map, Option.map_eq_some_iff] at hk hk'
      obtain ⟨p, hp, rfl⟩ := hk
      obtain ⟨p', hp', rfl⟩ := hk'
      obtain rfl : p = p' := Option.some.inj (hp.symm.trans hp')
      obtain ⟨ys, hys, hys'⟩ := hpairs p (Array.mem_of_getElem? hp)
      exact (Cursor.follows c).last_eq_next (Cursor.follows d) hys hys'
  drains {calls calls'} hcalls := by
    obtain ⟨c', hdrain, hc'⟩ := (drain_follows.calls_spec hc calls).completes trivial
    obtain ⟨d', hdrain', -⟩ := (drain_follows.calls_spec (h.holds hc) calls').completes trivial
    obtain ⟨hreplies, hleft⟩ :=
      (drain_faces.calls hcalls (h.drainedAlike hc)).of_ok hdrain hdrain'
    rw [← hreplies] at hdrain'
    have hd' := hleft.links.holds hc'
    exact ⟨_, c', d', _, _, hdrain, hdrain', hleft.links, ⟨_, hc'.items_eq, hd'.items_eq⟩,
      drain_follows.last_eq_next drain_follows hc' hd'⟩

end

/-! ### Twin steps on both chains -/

variable [Item α] {c d : Chain α A} {xs : List α}

/-- Twin questions about a chain and its image have the same answer. -/
theorem Mirrors.answer_eq (h : c.Mirrors d) (hc : c.Holds xs) {q q' : Query} (hq : q.Twin q') :
    c.answer q = d.answer q' := by
  have hd := h.holds hc
  cases hq with
  | front => rw [answer, answer, hc.front_eq, hd.back_eq, List.getLast?_reverse]
  | back => rw [answer, answer, hc.back_eq, hd.front_eq, List.head?_reverse]
  | len => rw [answer, answer, h.len]
  | isEmpty => rw [answer, answer, isEmpty, isEmpty, h.len]
  | items => rw [answer, answer, hc.items_eq, hd.itemsReversed_eq, List.reverse_reverse]
  | itemsReversed => rw [answer, answer, hc.itemsReversed_eq, hd.items_eq]
  | cursors hrequests =>
    have hstart := (Cursor.allFace_empty c d).push (Cursor.faces_ofChain hc hd)
    exact (CursorRequest.serveAll_parallel hc hd hrequests hstart).map_eq fun o o' ho =>
      congrArg Answer.replies ho.answer

variable [BlindSlotMap A]

/-- Twin steps run in parallel, and leave twins. -/
theorem Twins.perform (h : c.Twins d) (hc : c.Holds xs) {step step' : ListStep α}
    (hstep : step.Twin step') :
    Parallel (Outcome.Reflects Eq Twins) (step.perform c) (step'.perform d) := by
  cases hstep with
  | build capacity =>
    rw [ListStep.perform, withCapacity]
    split
    · exact .completed ⟨rfl, .empty⟩
    · exact .stopped _
  | prepend item => exact (h.prepend item).andAnswer fun _ _ _ => rfl
  | append item => exact (h.append item).andAnswer fun _ _ _ => rfl
  | clear => exact .completed ⟨rfl, h.clear⟩
  | deleteHead => exact h.deleteHead.andAnswer fun _ _ => congrArg Answer.item
  | deleteTail => exact h.deleteTail.andAnswer fun _ _ => congrArg Answer.item
  | drain hcalls =>
    exact (drain_faces.calls hcalls (h.drainedAlike hc)).map fun o o' ho =>
      ⟨congrArg Answer.replies ho.answer, .empty⟩
  | ask hquery =>
    rw [ListStep.perform, ListStep.perform, Act.inspect, Act.inspect, h.answer_eq hc hquery]
    cases d.answer _ with
    | error fault => exact .stopped fault
    | ok b => exact .completed ⟨rfl, h⟩

/-! ### Twin courses on two new chains -/

/-- Twin courses are answered alike, and leave twins. -/
theorem Twins.follow (h : c.Twins d) (hc : c.Holds xs) {steps steps' : List (ListStep α)}
    (hsteps : List.Forall₂ ListStep.Twin steps steps') :
    (ListStep.follow steps c).answers = (ListStep.follow steps' d).answers ∧
      (ListStep.follow steps c).left.Twins (ListStep.follow steps' d).left ∧
      ∃ ys, (ListStep.follow steps c).left.Holds ys := by
  induction hsteps generalizing c d xs with
  | nil => exact ⟨rfl, h, xs, hc⟩
  | @cons step step' rest rest' hstep _ ih =>
    have hperform := h.perform hc hstep
    rw [ListStep.follow, ListStep.follow]
    generalize hr : step.perform c = r, step'.perform d = r' at hperform
    cases hperform with
    | stopped fault =>
      obtain ⟨hanswers, hleft⟩ := ih h hc
      exact ⟨congrArg (Except.error fault :: ·) hanswers, hleft⟩
    | @completed o o' ho =>
      obtain ⟨hanswers, hleft⟩ := ih ho.state ((step.perform_spec hc).of_ok hr).2.2
      refine ⟨?_, hleft⟩
      exact congrArg₂ List.cons (congrArg Except.ok ho.answer) hanswers

/-- Two courses of twin steps on new chains are answered alike, and after each step the chains are opposites
of each other. -/
theorem twin_courses {steps steps' : List (ListStep α)}
    (hsteps : List.Forall₂ ListStep.Twin steps steps') (n : Nat) :
    (ListStep.follow (steps.take n) (.empty : Chain α A)).answers =
        (ListStep.follow (steps'.take n) (.empty : Chain α A)).answers ∧
      ∃ xs, (ListStep.follow (steps.take n) (.empty : Chain α A)).left.Opposes
        (ListStep.follow (steps'.take n) (.empty : Chain α A)).left xs := by
  obtain ⟨hanswers, hleft, xs, hxs⟩ :=
    (Twins.empty (A := A)).follow holds_empty (List.forall₂_take n hsteps)
  exact ⟨hanswers, xs, hleft.opposes hxs⟩

/-- Four steps out of five. A slot is used again on the way, and the two numbers that are left lie in the
same slots on both sides. -/
theorem twin_courses_numbers :
    List.Forall₂ (ListStep.Twin (α := Int))
        [.append 1, .append 2, .deleteHead, .prepend 3, .drain [.nextBack, .count]]
        [.prepend 1, .prepend 2, .deleteTail, .append 3, .drain [.next, .count]] ∧
      ∃ c d : Chain Int,
        (ListStep.follow [.append 1, .append 2, .deleteHead, .prepend 3] .empty).left = c ∧
        (ListStep.follow [.prepend 1, .prepend 2, .deleteTail, .append 3] .empty).left = d ∧
        (ListStep.follow [.append 1, .append 2, .deleteHead, .prepend 3] (.empty : Chain Int)).answers =
          (ListStep.follow [.prepend 1, .prepend 2, .deleteTail, .append 3]
            (.empty : Chain Int)).answers ∧
        c.Opposes d [3, 2] := by
  have hsteps : List.Forall₂ (ListStep.Twin (α := Int))
      [.append 1, .append 2, .deleteHead, .prepend 3, .drain [.nextBack, .count]]
      [.prepend 1, .prepend 2, .deleteTail, .append 3, .drain [.next, .count]] :=
    .cons (.append 1) (.cons (.append 2) (.cons .deleteHead (.cons (.prepend 3)
      (.cons (.drain (.cons .nextBack (.cons .count .nil))) .nil))))
  obtain ⟨hanswers, xs, hopposes⟩ := twin_courses (A := Arena) hsteps 4
  have hitems : (ListStep.follow [.append 1, .append 2, .deleteHead, .prepend 3]
      (.empty : Chain Int)).left.items = .ok [3, 2] := by decide +kernel
  obtain rfl : [3, 2] = xs := Except.ok.inj (hitems.symm.trans hopposes.items)
  exact ⟨hsteps, _, _, rfl, rfl, hanswers, hopposes⟩

end Chain

end SlotChain

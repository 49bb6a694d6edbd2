import SlotChain.Proofs.Reachable
import SlotChain.Proofs.WordCounting

/-!
# No run leaves a machine word

A run on a machine takes a new chain through insertions and deletions at its ends, each of them counted
as the machine counts. Extending, copying, joining and draining chains is made up of these, so that the
chains that runs lead to are all that there are. In every one of them each further operation is exact:
whatever a machine does at the edges of a word, it is never asked for. So are the steps of all cursors
over such a chain.
-/

namespace SlotChain

variable {σ α β γ : Type}

/-! ### Properties of states that actions keep -/

namespace Act

/-- A completed action does not lead out of the states of a kind. -/
def Keeps (p : σ → Prop) (x : Act σ β) : Prop := ∀ s o, p s → x s = .ok o → p o.state

variable {p : σ → Prop}

theorem keeps_pure (b : β) : Keeps p (pure b) := by
  intro s o hs h
  cases h
  exact hs

/-- What two actions keep is kept by the one after the other. -/
theorem Keeps.bind {x : Act σ β} {f : β → Act σ γ} (hx : Keeps p x) (hf : ∀ b, Keeps p (f b)) :
    Keeps p (x >>= f) := by
  intro s o hs h
  cases hfirst : x s with
  | error fault =>
    rw [bind_error hfirst] at h
    cases h
  | ok first =>
    cases hrest : f first.answer first.state with
    | error fault =>
      rw [bind_error_right hfirst hrest] at h
      cases h
    | ok rest =>
      rw [bind_ok hfirst hrest] at h
      cases h
      exact hf first.answer first.state rest (hx s first hs hfirst) hrest

/-- Reading something off a state keeps it. -/
theorem keeps_inspect (f : σ → Except Fault β) : Keeps p (inspect f) := by
  intro s o hs h
  obtain ⟨b, -, rfl⟩ := map_eq_ok.1 h
  exact hs

end Act

namespace TwoEnded

variable {p : σ → Prop} {take : Act σ (Option α)}

/-- Skipping items keeps what taking one keeps. -/
theorem keeps_takeNth (h : Act.Keeps p take) (k : Nat) : Act.Keeps p (takeNth take k) := by
  induction k with
  | zero => exact h
  | succ k ih =>
    refine h.bind fun taken => ?_
    cases taken with
    | none => exact Act.keeps_pure none
    | some _ => exact ih

/-- Collecting items keeps what taking one keeps. -/
theorem keeps_takeUpTo (h : Act.Keeps p take) (n : Nat) : Act.Keeps p (takeUpTo take n) := by
  induction n with
  | zero => exact Act.keeps_pure []
  | succ n ih =>
    refine h.bind fun taken => ?_
    cases taken with
    | none => exact Act.keeps_pure []
    | some x => exact ih.bind fun xs => Act.keeps_pure (x :: xs)

/-- Calls keep what both steps of a source keep. -/
theorem keeps_calls {e : TwoEnded σ α} (hfront : Act.Keeps p e.takeFront)
    (hback : Act.Keeps p e.takeBack) (qs : List Call) : Act.Keeps p (e.calls qs) := by
  have hall : ∀ {take : Act σ (Option α)}, Act.Keeps p take → Act.Keeps p (e.takeAll take) :=
    fun htake s => keeps_takeUpTo htake (e.remaining s) s
  have hcall : ∀ q : Call, Act.Keeps p (e.call q) := by
    intro q
    cases q with
    | next => exact hfront.bind fun _ => Act.keeps_pure _
    | nextBack => exact hback.bind fun _ => Act.keeps_pure _
    | nth k => exact (keeps_takeNth hfront k).bind fun _ => Act.keeps_pure _
    | nthBack k => exact (keeps_takeNth hback k).bind fun _ => Act.keeps_pure _
    | count => exact (hall hfront).bind fun _ => Act.keeps_pure _
    | last => exact (hall hfront).bind fun _ => Act.keeps_pure _
    | rest => exact (hall hfront).bind fun _ => Act.keeps_pure _
    | restReversed => exact (hall hback).bind fun _ => Act.keeps_pure _
    | len => exact Act.keeps_inspect _
    | sizeHint => exact Act.keeps_inspect _
  induction qs with
  | nil => exact Act.keeps_pure []
  | cons q qs ih => exact (hcall q).bind fun _ => ih.bind fun _ => Act.keeps_pure _

end TwoEnded

variable {A : Type → Type} [SlotMap A]

/-- A reachable chain is threaded through a run of cells. -/
theorem Chain.Reachable.threads [Item α] {c : Chain α A} (h : c.Reachable) :
    ∃ cells, c.Threads cells := by
  obtain ⟨-, cells, hcells, -⟩ := h.holds
  exact ⟨cells, hcells⟩

namespace Counting

/-! ### One step further -/

/-- The cursors that steps on a machine lead to over a chain. Copies need no mention, as a copy of a cursor
is the same cursor. -/
inductive Passes (m : Counting) (c : Chain α A) : Cursor → Prop
  /-- A new cursor. -/
  | start : Passes m c (Cursor.ofChain c)
  /-- A cursor after a step at its front. -/
  | next {k : Cursor} {o : Outcome Cursor (Option α)} (hk : Passes m c k)
    (h : m.next c k = .ok o) : Passes m c o.state
  /-- A cursor after a step at its back. -/
  | nextBack {k : Cursor} {o : Outcome Cursor (Option α)} (hk : Passes m c k)
    (h : m.nextBack c k = .ok o) : Passes m c o.state

/-- Whatever is done next with a chain, a machine counts exactly. All results are those of exact numbers,
and none is withheld but for want of room in the arena. -/
structure Exact (m : Counting) (c : Chain α A) : Prop where
  /-- The length is a word. -/
  len : c.len < wordLimit
  /-- Whatever slot an insertion fills, its key has a token and is recovered from it. -/
  stores : ∀ (cell : Cell α) key a, SlotMap.insert c.arena cell = some (key, a) → m.Recovers key
  /-- The same goes for the key of every occupied slot. -/
  tokens : ∀ key, (SlotMap.get? c.arena key).isSome → m.Recovers key
  /-- Different occupied slots have different tokens. -/
  apart : ∀ j k, (SlotMap.get? c.arena j).isSome → (SlotMap.get? c.arena k).isSome → j ≠ k →
    Token.ofKey j ≠ Token.ofKey k
  /-- The length is counted up at the head. -/
  prepend : ∀ item, m.prepend item c = Chain.prepend item c ∧
    CompletesWithin A (c.len + 1) (Chain.prepend item c)
  /-- It is counted up at the tail. -/
  append : ∀ item, m.append item c = Chain.append item c ∧
    CompletesWithin A (c.len + 1) (Chain.append item c)
  /-- It is counted down at the head. -/
  deleteHead : ∃ o, m.deleteHead c = .ok o ∧ Chain.deleteHead c = .ok o
  /-- It is counted down at the tail. -/
  deleteTail : ∃ o, m.deleteTail c = .ok o ∧ Chain.deleteTail c = .ok o
  /-- It is counted down wherever a cell is taken out. -/
  unlink : ∀ t cell, c.cell t = .ok cell →
    ∃ d, m.unlink c t = .ok (cell.item, d) ∧ c.unlink t = .ok (cell.item, d)
  /-- The steps of both walks of the audit are counted up. -/
  audit : m.audit c = .ok ()
  /-- The items ahead of a cursor are never more than the chain has, and are counted down at both ends. -/
  cursors : ∀ k, m.Passes c k → k.remaining ≤ c.len ∧
    (∃ o, m.next c k = .ok o ∧ Cursor.next c k = .ok o) ∧
    ∃ o, m.nextBack c k = .ok o ∧ Cursor.nextBack c k = .ok o

section

variable (m : Counting) {c : Chain α A} {cells : List (Token × α)}

/-- A cursor has no more items ahead than the chain has. -/
theorem remaining_le_of_reads {k : Cursor} {ahead : List α} (h : Cursor.Reads c k ahead) :
    k.remaining ≤ c.len := by
  obtain ⟨before, middle, behind, hthreads, -, hremaining, -⟩ := h
  rw [hremaining, hthreads.len, List.length_append, List.length_append]
  omega

/-- The steps of a cursor that has items of a chain ahead are exact, and leave such a cursor. -/
theorem steps_of_reads {k : Cursor} {ahead : List α} (h : Cursor.Reads c k ahead) :
    (∃ o, m.next c k = .ok o ∧ Cursor.next c k = .ok o ∧ ∃ ys, Cursor.Reads c o.state ys) ∧
      ∃ o, m.nextBack c k = .ok o ∧ Cursor.nextBack c k = .ok o ∧
        ∃ ys, Cursor.Reads c o.state ys := by
  obtain ⟨before, middle, behind, hthreads, -⟩ := id h
  have hword := Nat.lt_of_le_of_lt (remaining_le_of_reads h) (len_lt_of_threads hthreads)
  rw [m.next_eq c hword, m.nextBack_eq c hword]
  have hreversed : Cursor.Reads c k ahead.reverse.reverse := by rwa [List.reverse_reverse]
  obtain ⟨k₁, hnext, h₁⟩ := (Cursor.next_yields c k ahead h).completes trivial
  obtain ⟨k₂, hback, h₂⟩ := (Cursor.nextBack_yields c k ahead.reverse hreversed).completes trivial
  exact ⟨⟨_, hnext, hnext, _, h₁⟩, _, hback, hback, _, h₂⟩

/-- A cursor that steps lead to over a well-formed chain has items of the chain ahead. -/
theorem Passes.reads {m : Counting} (hc : c.Threads cells) {k : Cursor} (h : m.Passes c k) :
    ∃ ahead, Cursor.Reads c k ahead := by
  induction h with
  | start => exact ⟨_, Cursor.reads_ofChain ⟨cells, hc, rfl⟩⟩
  | next _ h ih =>
    obtain ⟨ahead, hk⟩ := ih
    obtain ⟨⟨o, hnext, -, hreads⟩, -⟩ := m.steps_of_reads hk
    cases hnext.symm.trans h
    exact hreads
  | nextBack _ h ih =>
    obtain ⟨ahead, hk⟩ := ih
    obtain ⟨-, o, hback, -, hreads⟩ := m.steps_of_reads hk
    cases hback.symm.trans h
    exact hreads

/-- A cell of a well-formed chain is taken out alike on every machine. -/
theorem unlink_of_cell (h : c.Threads cells) {t : Token} {cell : Cell α} (hcell : c.cell t = .ok cell) :
    ∃ d, m.unlink c t = .ok (cell.item, d) ∧ c.unlink t = .ok (cell.item, d) := by
  have hlook : SlotMap.get? c.arena t.key = some cell := Chain.cellAt_of_cell hcell
  obtain ⟨s, hs, hkey⟩ := h.occupied t.key (Option.isSome_of_eq_some hlook)
  obtain rfl := Token.key_injective hkey
  obtain ⟨⟨_, x⟩, hmem, rfl⟩ := List.mem_map.1 hs
  obtain ⟨front, back, rfl⟩ := List.append_of_mem hmem
  have heq := h.cell_eq.symm.trans hcell
  cases heq
  obtain ⟨d, hunlink, -⟩ := Chain.unlink_spec h
  rw [m.unlink_eq (len_pos_of_threads h) (len_lt_of_threads h)]
  exact ⟨d, hunlink, hunlink⟩

/-- On a well-formed chain every machine counts exactly. -/
theorem exact_of_threads (h : c.Threads cells) : m.Exact c := by
  have hholds : c.Holds (cells.map Prod.snd) := ⟨cells, h, rfl⟩
  have hlen := hholds.len_eq
  exact
    { len := len_lt_of_threads h
      stores := fun cell key a hinsert => by
        obtain ⟨t, -, rfl⟩ := Token.exists_ofKey (SlotMap.key_lt_of_insert hinsert)
        exact m.recovers_key t
      tokens := fun key hkey => by
        obtain ⟨t, -, rfl⟩ := h.occupied key hkey
        exact m.recovers_key t
      apart := fun j k hj hk hne heq => by
        obtain ⟨s, -, rfl⟩ := h.occupied j hj
        obtain ⟨t, -, rfl⟩ := h.occupied k hk
        rw [s.ofKey_key, t.ofKey_key] at heq
        exact hne (congrArg Token.key (Except.ok.inj heq))
      prepend := fun item => ⟨m.prepend_eq h item, hlen ▸ (hholds.prepend item).completesWithin⟩
      append := fun item => ⟨m.append_eq h item, hlen ▸ (hholds.append item).completesWithin⟩
      deleteHead := by
        obtain ⟨d, hdelete, -⟩ := hholds.deleteHead.completes trivial
        exact ⟨_, (m.deleteHead_eq h).trans hdelete, hdelete⟩
      deleteTail := by
        obtain ⟨d, hdelete, -⟩ := hholds.deleteTail.completes trivial
        exact ⟨_, (m.deleteTail_eq h).trans hdelete, hdelete⟩
      unlink := fun t cell hcell => m.unlink_of_cell h hcell
      audit := m.audit_eq h
      cursors := fun k hk => by
        obtain ⟨ahead, hreads⟩ := hk.reads h
        obtain ⟨⟨o, hnext, hnext', -⟩, p, hback, hback', -⟩ := m.steps_of_reads hreads
        exact ⟨remaining_le_of_reads hreads, ⟨o, hnext, hnext'⟩, p, hback, hback'⟩ }

end

/-! ### Runs of any length -/

/-- The chains that runs on a machine lead to. -/
inductive Reaches (m : Counting) : Chain α A → Prop
  /-- A new chain. -/
  | empty : Reaches m Chain.empty
  /-- A chain with an item more at its head. -/
  | prepend {c : Chain α A} {o : Outcome (Chain α A) Unit} {item : α} (hc : Reaches m c)
    (h : m.prepend item c = .ok o) : Reaches m o.state
  /-- A chain with an item more at its tail. -/
  | append {c : Chain α A} {o : Outcome (Chain α A) Unit} {item : α} (hc : Reaches m c)
    (h : m.append item c = .ok o) : Reaches m o.state
  /-- A chain without its head. -/
  | deleteHead {c : Chain α A} {o : Outcome (Chain α A) (Option α)} (hc : Reaches m c)
    (h : m.deleteHead c = .ok o) : Reaches m o.state
  /-- A chain without its tail. -/
  | deleteTail {c : Chain α A} {o : Outcome (Chain α A) (Option α)} (hc : Reaches m c)
    (h : m.deleteTail c = .ok o) : Reaches m o.state
  /-- A chain that was cleared. -/
  | clear {c : Chain α A} (hc : Reaches m c) : Reaches m c.clear

variable [Item α] (m : Counting)

/-- On a reachable chain every machine counts exactly. -/
theorem exact_of_reachable {c : Chain α A} (h : c.Reachable) : m.Exact c := by
  obtain ⟨cells, hcells⟩ := h.threads
  exact m.exact_of_threads hcells

/-- An action that makes up a step, all but its answer, leads from reachable chains to reachable chains. -/
theorem keeps_reachable {x : Act (Chain α A) β} (step : ListStep α) (f : β → Answer α)
    (hstep : step.perform = (do let b ← x; return f b : Act (Chain α A) (Answer α))) :
    Act.Keeps Chain.Reachable x := by
  intro c o hc h
  have hperform : step.perform c = .ok ⟨f o.answer, o.state, o.events ++ []⟩ := by
    rw [hstep]
    exact Act.bind_ok (f := fun b => pure (f b)) h rfl
  exact .step hc hperform

/-- Runs on a machine lead to reachable chains only. -/
theorem Reaches.reachable {m : Counting} {c : Chain α A} (h : m.Reaches c) : c.Reachable := by
  induction h with
  | empty => exact .empty
  | @prepend _ _ item _ h ih =>
    rw [((m.exact_of_reachable ih).prepend item).1] at h
    exact keeps_reachable (.prepend item) (fun _ => .done) rfl _ _ ih h
  | @append _ _ item _ h ih =>
    rw [((m.exact_of_reachable ih).append item).1] at h
    exact keeps_reachable (.append item) (fun _ => .done) rfl _ _ ih h
  | deleteHead _ h ih =>
    obtain ⟨o, hdelete, hexact⟩ := (m.exact_of_reachable ih).deleteHead
    cases hdelete.symm.trans h
    exact keeps_reachable .deleteHead Answer.item rfl _ _ ih hexact
  | deleteTail _ h ih =>
    obtain ⟨o, hdelete, hexact⟩ := (m.exact_of_reachable ih).deleteTail
    cases hdelete.symm.trans h
    exact keeps_reachable .deleteTail Answer.item rfl _ _ ih hexact
  | @clear c _ ih =>
    have hclear : ListStep.clear.perform c = .ok ⟨.done, c.clear, []⟩ := rfl
    exact .step ih hclear

theorem keeps_prepend (item : α) : Act.Keeps (Reaches m (A := A)) (Chain.prepend item) := by
  intro c o hc h
  exact .prepend hc (((m.exact_of_reachable hc.reachable).prepend item).1.trans h)

theorem keeps_append (item : α) : Act.Keeps (Reaches m (A := A)) (Chain.append item) := by
  intro c o hc h
  exact .append hc (((m.exact_of_reachable hc.reachable).append item).1.trans h)

theorem keeps_deleteHead : Act.Keeps (Reaches m (α := α) (A := A)) Chain.deleteHead := by
  intro c o hc h
  obtain ⟨p, hdelete, hexact⟩ := (m.exact_of_reachable hc.reachable).deleteHead
  cases hexact.symm.trans h
  exact .deleteHead hc hdelete

theorem keeps_deleteTail : Act.Keeps (Reaches m (α := α) (A := A)) Chain.deleteTail := by
  intro c o hc h
  obtain ⟨p, hdelete, hexact⟩ := (m.exact_of_reachable hc.reachable).deleteTail
  cases hexact.symm.trans h
  exact .deleteTail hc hdelete

/-- Draining is deleting. -/
theorem keeps_drain (calls : List Call) :
    Act.Keeps (Reaches m (α := α) (A := A)) (Chain.drain.calls calls) :=
  TwoEnded.keeps_calls m.keeps_deleteHead m.keeps_deleteTail calls

/-- Extending is appending. -/
theorem keeps_extend (items : List α) : Act.Keeps (Reaches m (A := A)) (Chain.extend items) := by
  induction items with
  | nil => exact Act.keeps_pure ()
  | cons x xs ih => exact (m.keeps_append x).bind fun _ => ih

/-- Building a chain of items is appending to a new one. -/
theorem reaches_ofList {items : List α} {o : Outcome (Chain α A) Unit}
    (h : Chain.ofList items = .ok o) : m.Reaches o.state := by
  rw [Chain.ofList] at h
  rcases Chain.withCapacity_spec (α := α) (A := A) items.length with ⟨hnew, -⟩ | ⟨hfull, -⟩
  · rw [bind_of_eq_ok hnew] at h
    exact m.keeps_extend items _ _ .empty h
  · rw [hfull] at h
    cases h

/-- Moving items to a chain is appending to it. -/
theorem keeps_moveUpTo (n : Nat) :
    Act.Keeps (fun t : Transfer α A => m.Reaches t.target) (Transfer.moveUpTo n) := by
  have hone : Act.Keeps (fun t : Transfer α A => m.Reaches t.target) Transfer.moveOne := by
    intro t o ht h
    obtain ⟨taken, -, hrest⟩ := bind_eq_ok.1 h
    split at hrest
    · cases hrest
      exact ht
    · obtain ⟨added, happend, hlast⟩ := bind_eq_ok.1 hrest
      cases hlast
      exact m.keeps_append _ _ _ ht happend
  induction n with
  | zero => exact Act.keeps_pure ()
  | succ n ih =>
    refine hone.bind fun moved => ?_
    cases moved with
    | false => exact Act.keeps_pure ()
    | true => exact ih

/-- Joining a chain to another is appending to that one. -/
theorem keeps_absorb (source : Chain α A) : Act.Keeps m.Reaches (Chain.absorb source) := by
  intro c o hc h
  rw [Chain.absorb, Transfer.absorbUpTo_eq] at h
  obtain ⟨moved, hmoves, rfl⟩ := map_eq_ok.1 h
  exact m.keeps_moveUpTo source.len ⟨source, c⟩ moved hc hmoves

/-- Steps are made up of insertions and deletions. -/
theorem keeps_perform (step : ListStep α) : Act.Keeps (Reaches m (A := A)) step.perform := by
  cases step with
  | build capacity =>
    intro c o _ h
    obtain ⟨d, hnew, rfl⟩ := map_eq_ok.1 h
    rw [Chain.withCapacity] at hnew
    split at hnew
    · cases hnew
      exact .empty
    · cases hnew
  | collect items =>
    intro c o _ h
    obtain ⟨p, hbuild, rfl⟩ := map_eq_ok.1 h
    exact m.reaches_ofList hbuild
  | prepend item => exact (m.keeps_prepend item).bind fun _ => Act.keeps_pure _
  | append item => exact (m.keeps_append item).bind fun _ => Act.keeps_pure _
  | extend items => exact (m.keeps_extend items).bind fun _ => Act.keeps_pure _
  | clear =>
    intro c o hc h
    cases h
    exact .clear hc
  | deleteHead => exact m.keeps_deleteHead.bind fun _ => Act.keeps_pure _
  | deleteTail => exact m.keeps_deleteTail.bind fun _ => Act.keeps_pure _
  | drain calls =>
    intro c o _ h
    obtain ⟨p, -, rfl⟩ := map_eq_ok.1 h
    exact .empty
  | ask query => exact Act.keeps_inspect _

/-- Runs on a machine lead to every reachable chain. -/
theorem reaches_of_reachable {c : Chain α A} (h : c.Reachable) : m.Reaches c := by
  induction h with
  | empty => exact .empty
  | step _ h ih => exact m.keeps_perform _ _ _ ih h
  | drain _ h ih => exact m.keeps_drain _ _ _ ih h
  | copy hc h _ =>
    obtain ⟨xs, hxs⟩ := hc.holds
    rw [Chain.copy, bind_of_eq_ok hxs.items_eq] at h
    exact m.reaches_ofList h
  | absorb _ _ h ih _ => exact m.keeps_absorb _ _ _ ih h

/-- However a machine counts at the edges of a word, its runs lead to the chains that exact counting leads
to, and in each of them it goes on counting exactly. So no count ever comes to an edge. On other chains,
too, the audit has one verdict, unless the length that they claim is the largest word. -/
theorem counts_exactly (m : Counting) :
    (∀ c : Chain α A, m.Reaches c ↔ c.Reachable) ∧
      (∀ c : Chain α A, m.Reaches c → m.Exact c) ∧
      ∀ c : Chain α A, c.len + 1 < wordLimit → (m.audit c = .ok () ↔ c.audit = .ok ()) :=
  ⟨fun _ => ⟨Reaches.reachable, m.reaches_of_reachable⟩,
    fun _ h => m.exact_of_reachable h.reachable, fun _ hword => m.audit_eq_ok_iff hword⟩

/-- Two numbers, the first of which fills a slot that was given up before, on a machine that would wrap
around. The counting down to an empty chain does not, and neither does what comes after it. -/
theorem counts_exactly_numbers :
    ∃ c : Chain Int Arena,
      ListStep.performAll [.append 1, .deleteHead, .prepend 2, .append 3] .empty =
        (c, .ok [.done, .item (some 1), .done, .done]) ∧
      c.Holds [2, 3] ∧ wrapping.Reaches c ∧ wrapping.Exact c ∧
      (wrapping.audit c = .ok () ↔ c.audit = .ok ()) := by
  obtain ⟨c, hrun, hreach, hc⟩ := Chain.Reachable.of_steps (A := Arena)
    [.append 1, .deleteHead, .prepend 2, .append (3 : Int)] (by decide)
  obtain ⟨hreaches, hexact, haudit⟩ := counts_exactly (α := Int) (A := Arena) wrapping
  have hrun' : wrapping.Reaches c := (hreaches c).2 hreach
  have hword : c.len + 1 < wordLimit := by
    rw [hc.len_eq]
    decide
  exact ⟨c, hrun, hc, hrun', hexact c hrun', haudit c hword⟩

end Counting

end SlotChain

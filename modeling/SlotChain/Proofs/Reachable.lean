import SlotChain.Proofs.Refinement

/-!
# Reachable chains

The chains that any order of operations can lead to are all well formed, the ones left inside of a
partly drained source included. So no link is ever stale, no length leaves the machine word and no audit
fails: an operation is completed unless it asks for more entries than an arena has room for.
-/

namespace SlotChain

variable {α : Type} {A : Type → Type} [SlotMap A] {β : Type}

/-- A result is only ever withheld because an arena has no room for so many entries. -/
def CompletesWithin (A : Type → Type) [SlotMap A] (demand : Nat) (r : Except Fault β) : Prop :=
  (∃ b, r = .ok b) ∨ (r = .error .capacityOverflow ∧ SlotMap.room A < demand)

/-- An action that stands for a plain one is only refused for want of room. -/
theorem Matches.completesWithin {σ τ : Type} {stands : σ → τ → Prop} {demand : Nat}
    {r : Except Fault (Outcome σ β)} {o : Outcome τ β}
    (h : Matches (demand ≤ SlotMap.room A) stands r o) : CompletesWithin A demand r := by
  cases h with
  | done h => exact .inl ⟨_, rfl⟩
  | refused h => exact .inr ⟨rfl, Nat.lt_of_not_le h⟩

namespace Chain

/-- A token is stored in a chain: at one of its ends or in a link of any of its cells. -/
inductive Mentions (c : Chain α A) (t : Token) : Prop where
  | head (h : c.head = some t)
  | tail (h : c.tail = some t)
  | prev {k : Nat} {cell : Cell α} (hcell : SlotMap.get? c.arena k = some cell)
    (h : cell.prev = some t)
  | next {k : Nat} {cell : Cell α} (hcell : SlotMap.get? c.arena k = some cell)
    (h : cell.next = some t)

/-- Each occupied slot of a well-formed chain holds a cell between two neighbours in the order. -/
theorem WellFormed.links_of_get? {c : Chain α A} {ts : List Token} (h : c.WellFormed ts) {k : Nat}
    {cell : Cell α} (hcell : SlotMap.get? c.arena k = some cell) :
    ∃ i, cell.prev = (if i = 0 then none else ts[i - 1]?) ∧ cell.next = ts[i + 1]? := by
  obtain ⟨t, ht, rfl⟩ := (h.occupied k).1 (Option.isSome_of_eq_some hcell)
  obtain ⟨i, hi⟩ := List.mem_iff_getElem?.1 ht
  obtain ⟨x, hx⟩ := h.links i t hi
  rw [Chain.cell, hcell] at hx
  cases hx
  exact ⟨i, rfl, rfl⟩

/-- Whatever token a well-formed chain mentions is one of its own. -/
theorem WellFormed.mem_of_mentions {c : Chain α A} {ts : List Token} (h : c.WellFormed ts)
    {t : Token} (ht : c.Mentions t) : t ∈ ts := by
  cases ht with
  | head hend =>
    rw [h.head] at hend
    exact List.mem_of_mem_head? hend
  | tail hend =>
    rw [h.tail] at hend
    exact List.mem_of_getLast? hend
  | prev hcell hlink =>
    obtain ⟨i, hprev, -⟩ := h.links_of_get? hcell
    rw [hprev] at hlink
    split at hlink
    · cases hlink
    · exact List.mem_of_getElem? hlink
  | next hcell hlink =>
    obtain ⟨i, -, hnext⟩ := h.links_of_get? hcell
    rw [hnext] at hlink
    exact List.mem_of_getElem? hlink

/-- A token of a well-formed chain names a cell. -/
theorem WellFormed.cell_of_mem {c : Chain α A} {ts : List Token} (h : c.WellFormed ts) {t : Token}
    (ht : t ∈ ts) : ∃ cell, c.cell t = .ok cell := by
  obtain ⟨i, hi⟩ := List.mem_iff_getElem?.1 ht
  obtain ⟨x, hx⟩ := h.links i t hi
  exact ⟨_, hx⟩

variable [Item α]

/-- A chain in good order that holds some items. What it mentions is its own, and whatever is done with
it is completed, unless an arena has no room for the outcome. -/
structure Intact (c : Chain α A) (xs : List α) : Prop where
  /-- The tokens of the chain have an order, and the chain mentions no others. -/
  linked : ∃ ts, c.WellFormed ts ∧ ∀ t, c.Mentions t → t ∈ ts
  /-- No token that the chain mentions is stale. -/
  live : ∀ t, c.Mentions t → ∃ cell, c.cell t = .ok cell
  /-- The chain passes the audit. -/
  audited : c.audit = .ok ()
  /-- The items can be read. -/
  readable : c.items = .ok xs
  /-- Every step is completed within the room that it asks for. -/
  steps : ∀ step : ListStep α, CompletesWithin A (step.demand xs) (step.perform c)
  /-- So is copying. -/
  copies : CompletesWithin A xs.length c.copy
  /-- Draining needs no room. -/
  drains : ∀ calls, ∃ o, Chain.drain.calls calls c = .ok o

/-- A chain that holds some items is in good order. -/
theorem Holds.intact {c : Chain α A} {xs : List α} (h : c.Holds xs) : c.Intact xs := by
  obtain ⟨cells, hcells, -⟩ := id h
  have hwell := hcells.wellFormed
  exact
    { linked := ⟨_, hwell, fun t ht => hwell.mem_of_mentions ht⟩
      live := fun t ht => hwell.cell_of_mem (hwell.mem_of_mentions ht)
      audited := hcells.audit
      readable := h.items_eq
      steps := fun step => (step.perform_spec h).completesWithin
      copies := h.copy.completesWithin
      drains := fun calls => by
        obtain ⟨d, hdrain, -⟩ := (drain_follows.calls_spec h calls).completes trivial
        exact ⟨_, hdrain⟩ }

/-- The chains that the operations on chains can lead to. -/
inductive Reachable : Chain α A → Prop
  /-- A new chain. -/
  | empty : Reachable Chain.empty
  /-- What a step on a single chain leaves, be it a mutation, a new start or a question. -/
  | step {c : Chain α A} {step : ListStep α} {o : Outcome (Chain α A) (Answer α)}
    (hc : Reachable c) (h : step.perform c = .ok o) : Reachable o.state
  /-- What calls to a drained chain leave in it. -/
  | drain {c : Chain α A} {calls : List Call} {o : Outcome (Chain α A) (List (Reply α))}
    (hc : Reachable c) (h : Chain.drain.calls calls c = .ok o) : Reachable o.state
  /-- A copy. -/
  | copy {c : Chain α A} {o : Outcome (Chain α A) Unit} (hc : Reachable c) (h : c.copy = .ok o) :
    Reachable o.state
  /-- A chain to which all items of another were moved. -/
  | absorb {c source : Chain α A} {o : Outcome (Chain α A) Unit} (hc : Reachable c)
    (hsource : Reachable source) (h : Chain.absorb source c = .ok o) : Reachable o.state

namespace Reachable

variable {c : Chain α A}

/-- Every reachable chain holds a sequence of items, and so is well formed. -/
theorem holds (h : c.Reachable) : ∃ xs, c.Holds xs := by
  induction h with
  | empty => exact ⟨[], holds_empty⟩
  | @step _ step _ _ h ih =>
    obtain ⟨xs, hxs⟩ := ih
    exact ⟨_, ((step.perform_spec hxs).of_ok h).2.2⟩
  | @drain _ calls _ _ h ih =>
    obtain ⟨xs, hxs⟩ := ih
    exact ⟨_, ((drain_follows.calls_spec hxs calls).of_ok h).2.2⟩
  | copy _ h ih =>
    obtain ⟨xs, hxs⟩ := ih
    exact ⟨_, (hxs.copy.of_ok h).2.2⟩
  | absorb _ _ h ih ihsource =>
    obtain ⟨xs, hxs⟩ := ih
    obtain ⟨ys, hys⟩ := ihsource
    exact ⟨_, ((hxs.absorb hys).of_ok h).2.2⟩

/-- A reachable chain holds the items that are read from it. -/
theorem holds_of_items (h : c.Reachable) {xs : List α} (hitems : c.items = .ok xs) : c.Holds xs := by
  obtain ⟨ys, hys⟩ := h.holds
  rwa [hys.eq_of_items hitems]

/-- Any course of steps leads to a reachable chain, also where it stops with a fault. -/
theorem performAll (h : c.Reachable) (steps : List (ListStep α)) :
    (ListStep.performAll steps c).1.Reachable := by
  induction steps generalizing c with
  | nil => exact h
  | cons step rest ih =>
    rw [ListStep.performAll]
    cases hstep : step.perform c with
    | error fault => exact h
    | ok o => exact ih (.step h hstep)

/-- A course of steps on a new chain that does not ask for too much room leads to a reachable chain, and
gives the items and the answers of a plain sequence. -/
theorem of_steps (steps : List (ListStep α))
    (hroom : ListStep.demandAll [] steps ≤ SlotMap.room A) :
    ∃ c : Chain α A, ListStep.performAll steps .empty = (c, .ok (ListStep.plainAll [] steps).2) ∧
      c.Reachable ∧ c.Holds (ListStep.plainAll [] steps).1 := by
  have hreach := performAll (.empty (A := A)) steps
  obtain ⟨c, hrun, hc⟩ := ListStep.performAll_spec (holds_empty (A := A)) hroom
  rw [hrun] at hreach
  exact ⟨c, hrun, hreach, hc⟩

/-- Every reachable chain is in good order. So are the dealings of any two of them: they can be compared,
and the items of one can be moved to the other. -/
theorem always_intact (h : c.Reachable) :
    ∃ xs, c.Intact xs ∧
      ∀ (d : Chain α A) (ys : List α), d.Reachable → d.items = .ok ys →
        c.equals d = .ok (xs == ys) ∧
          CompletesWithin A (xs.length + ys.length) (Chain.absorb d c) := by
  obtain ⟨xs, hxs⟩ := h.holds
  refine ⟨xs, hxs.intact, fun d ys hd hitems => ?_⟩
  obtain ⟨zs, hzs⟩ := hd.holds
  have heq : zs = ys := Except.ok.inj (hzs.items_eq.symm.trans hitems)
  subst heq
  exact ⟨hxs.equals_eq hzs, (hxs.absorb hzs).completesWithin⟩

/-- A chain of two numbers, one of them in a slot that was given up before. -/
theorem always_intact_numbers :
    ∃ c : Chain Int,
      ListStep.performAll [.append 1, .deleteHead, .prepend 2, .append 3] .empty =
        (c, .ok [.done, .item (some 1), .done, .done]) ∧
      c.Reachable ∧
      ∃ xs, c.Intact xs ∧
        ∀ (d : Chain Int) (ys : List Int), d.Reachable → d.items = .ok ys →
          c.equals d = .ok (xs == ys) ∧
            CompletesWithin Arena (xs.length + ys.length) (Chain.absorb d c) := by
  obtain ⟨c, hrun, hreach, -⟩ :=
    of_steps (A := Arena) [.append 1, .deleteHead, .prepend 2, .append (3 : Int)] (by decide)
  exact ⟨c, hrun, hreach, always_intact hreach⟩

end Reachable

end Chain

end SlotChain

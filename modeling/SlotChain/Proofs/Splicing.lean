import SlotChain.Chain.Splice
import SlotChain.Proofs.Threads

/-!
# Splicing keeps chains well formed

Each step of the link surgery is described by what it does to the look-up of cells. From these
descriptions follow the two facts that every mutation rests on: a stored cell can be linked between any
two neighbours of a run, and a cell can be taken out of a well-formed chain wherever it stands.
-/

namespace SlotChain

variable {α : Type} {A : Type → Type} [SlotMap A]

/-- A first step that succeeds hands its result on. -/
theorem bind_of_eq_ok {β γ : Type} {x : Except Fault β} {f : β → Except Fault γ} {b : β}
    (h : x = .ok b) : (x >>= f) = f b := by
  rw [h]
  rfl

/-- Between two arenas only the links of one cell have changed, if of any. -/
structure Relinked (a b : A (Cell α)) (f : Cell α → Cell α) (touched : Option Token) : Prop where
  /-- The same slots are occupied. -/
  isSome_eq : ∀ k, (SlotMap.get? b k).isSome = (SlotMap.get? a k).isSome
  /-- Only the named cell has changed. -/
  cellAt_eq : ∀ t, cellAt b t = if touched = some t then (cellAt a t).map f else cellAt a t

namespace Chain

/-- Relinking a cell that exists succeeds and changes that cell alone. -/
theorem relink_spec {c : Chain α A} {t : Token} (f : Cell α → Cell α)
    (h : (cellAt c.arena t).isSome) :
    ∃ a, c.relink t f = .ok { c with arena := a } ∧ Relinked c.arena a f (some t) := by
  obtain ⟨cell, hcell⟩ := Option.isSome_iff_exists.1 h
  refine ⟨SlotMap.modify c.arena t.key f, ?_, ?_, ?_⟩
  · rw [relink, cell_of_cellAt hcell]
    rfl
  · intro k
    rw [SlotMap.get?_modify]
    split
    · rw [Option.isSome_map]
    · rfl
  · intro s
    rw [cellAt, SlotMap.get?_modify]
    by_cases e : t = s
    · subst e
      rw [if_pos rfl, if_pos rfl, cellAt]
    · rw [if_neg fun hk => e (Token.key_injective hk.symm), if_neg fun hs => e (Option.some.inj hs),
        cellAt]

/-- Relinking a neighbour succeeds if it exists or there is none, and changes no other cell. -/
theorem relinkNeighbour_spec {c : Chain α A} {neighbour : Option Token} (f : Cell α → Cell α)
    (h : ∀ t, neighbour = some t → (cellAt c.arena t).isSome) :
    ∃ a, c.relinkNeighbour f neighbour = .ok { c with arena := a } ∧
      Relinked c.arena a f neighbour := by
  cases neighbour with
  | none => exact ⟨c.arena, rfl, fun _ => rfl, fun _ => rfl⟩
  | some t => exact relink_spec f (h t rfl)

/-- Storing an item either is refused, and then the arena is full, or fills a slot that was vacant and
changes no other. -/
theorem store_spec (c : Chain α A) (item : α) :
    (c.store item = .error .capacityOverflow ∧ SlotMap.room A ≤ SlotMap.size c.arena) ∨
      ∃ t a, c.store item = .ok (t, { c with arena := a }) ∧ cellAt c.arena t = none ∧
        ∀ k, SlotMap.get? a k =
          if k = t.key then some ⟨none, none, item⟩ else SlotMap.get? c.arena k := by
  cases hins : SlotMap.insert c.arena ⟨none, none, item⟩ with
  | none =>
    left
    refine ⟨by simp only [store, hins], Nat.le_of_not_lt fun hlt => ?_⟩
    have hsome := SlotMap.insert_isSome c.arena (⟨none, none, item⟩ : Cell α) hlt
    rw [hins] at hsome
    cases hsome
  | some stored =>
    obtain ⟨key, a⟩ := stored
    right
    obtain ⟨t, ht, rfl⟩ := Token.exists_ofKey (SlotMap.key_lt_of_insert hins)
    refine ⟨t, a, ?_, ?_, ?_⟩
    · simp only [store, hins, ht]
      rfl
    · exact SlotMap.get?_of_insert hins
    · exact SlotMap.get?_insert hins

/-- The tokens on both sides of a cell are distinct, and none of them is that of the cell. -/
structure Cut (front : List (Token × α)) (t : Token) (back : List (Token × α)) : Prop where
  /-- No token occurs twice in front of the cell. -/
  nodup_front : (tokensOf front).Nodup
  /-- No token occurs twice behind the cell. -/
  nodup_back : (tokensOf back).Nodup
  /-- No token occurs on both sides. -/
  apart : ∀ s ∈ tokensOf front, s ∉ tokensOf back
  /-- The token of the cell does not occur in front of it. -/
  not_front : t ∉ tokensOf front
  /-- The token of the cell does not occur behind it. -/
  not_back : t ∉ tokensOf back

/-- A run of distinct tokens can be cut at any of its cells. -/
theorem cut_of_nodup {front back : List (Token × α)} {t : Token} {x : α}
    (h : (tokensOf (front ++ (t, x) :: back)).Nodup) : Cut front t back := by
  rw [tokensOf_append, tokensOf_cons] at h
  obtain ⟨hfront, hrest, hapart⟩ := List.nodup_append.1 h
  obtain ⟨hnot, hback⟩ := List.nodup_cons.1 hrest
  constructor
  · exact hfront
  · exact hback
  · intro s hs hs'
    exact hapart s hs s (List.mem_cons_of_mem _ hs') rfl
  · intro ht
    exact hapart t ht t List.mem_cons_self rfl
  · exact hnot

/-- The two neighbours of a cut can be linked to new tokens. Their sides are redirected to these, and all
other cells are as before. -/
theorem relinkNeighbours_spec {c : Chain α A} {front back : List (Token × α)} {t : Token}
    {before after : Option Token} (hcut : Cut front t back)
    (hfront : Linked (cellAt c.arena) none front after)
    (hback : Linked (cellAt c.arena) before back none) (next prev : Option Token) :
    ∃ a₁ a, c.relinkNeighbour (fun cell => { cell with next }) (lastToken front) =
        .ok { c with arena := a₁ } ∧
      { c with arena := a₁ }.relinkNeighbour (fun cell => { cell with prev }) (firstToken back) =
        .ok { c with arena := a } ∧
      (∀ k, (SlotMap.get? a k).isSome = (SlotMap.get? c.arena k).isSome) ∧
      cellAt a t = cellAt c.arena t ∧
      Linked (cellAt a) none front next ∧ Linked (cellAt a) prev back none := by
  have hlast : ∀ s, lastToken front = some s → (cellAt c.arena s).isSome := by
    intro s hs
    exact hfront.isSome (mem_of_lastToken hs)
  obtain ⟨a₁, h₁, hslots₁, hcell₁⟩ :=
    relinkNeighbour_spec (c := c) (fun cell => { cell with next }) hlast
  have hfirst : ∀ s, firstToken back = some s → (cellAt a₁ s).isSome := by
    intro s hs
    exact (hslots₁ s.key).trans (hback.isSome (mem_of_firstToken hs))
  obtain ⟨a, h₂, hslots₂, hcell₂⟩ := relinkNeighbour_spec (c := { c with arena := a₁ })
    (fun cell => { cell with prev }) hfirst
  have hnotFirst : ∀ s, s ∉ tokensOf back → firstToken back ≠ some s := fun s hs e =>
    hs (mem_of_firstToken e)
  have hnotLast : ∀ s, s ∉ tokensOf front → lastToken front ≠ some s := fun s hs e =>
    hs (mem_of_lastToken e)
  refine ⟨a₁, a, h₁, h₂, fun k => (hslots₂ k).trans (hslots₁ k), ?_, ?_, ?_⟩
  · rw [hcell₂, if_neg (hnotFirst t hcut.not_back), hcell₁, if_neg (hnotLast t hcut.not_front)]
  · refine hfront.redirect_after hcut.nodup_front fun s hs => ?_
    rw [hcell₂, if_neg (hnotFirst s (hcut.apart s hs)), hcell₁]
  · refine hback.redirect_before hcut.nodup_back fun s hs => ?_
    have hs' : s ∉ tokensOf front := fun hfront => hcut.apart s hfront hs
    rw [hcell₂, hcell₁, if_neg (hnotLast s hs')]

/-- A cell that stands alone in a new slot can be linked into a run at any place. -/
theorem linkBetween_spec {c : Chain α A} {front back : List (Token × α)} {t : Token} {x : α}
    (hnodup : (tokensOf (front ++ (t, x) :: back)).Nodup)
    (hrun : Linked (cellAt c.arena) none (front ++ back) none)
    (hnew : ∃ prev next, cellAt c.arena t = some ⟨prev, next, x⟩) :
    ∃ a, c.linkBetween t (lastToken front) (firstToken back) = .ok { c with arena := a } ∧
      (∀ k, (SlotMap.get? a k).isSome = (SlotMap.get? c.arena k).isSome) ∧
      Linked (cellAt a) none (front ++ (t, x) :: back) none := by
  have hcut := cut_of_nodup hnodup
  obtain ⟨hfront, hback⟩ := (linked_append front back).1 hrun
  obtain ⟨a₁, a₂, h₁, h₂, hslots₂, hsame, hfront₂, hback₂⟩ :=
    relinkNeighbours_spec hcut hfront hback (some t) (some t)
  obtain ⟨prev, next, hnew⟩ := hnew
  rw [hnew] at hsame
  have hself : (cellAt a₂ t).isSome := Option.isSome_of_eq_some hsame
  obtain ⟨a₃, h₃, hslots₃, hcell₃⟩ := relink_spec (c := { c with arena := a₂ })
    (fun cell => { cell with prev := lastToken front, next := firstToken back }) hself
  have hother : ∀ s, s ≠ t → cellAt a₃ s = cellAt a₂ s := by
    intro s hs
    rw [hcell₃, if_neg fun e => hs (Option.some.inj e).symm]
  refine ⟨a₃, ?_, fun k => (hslots₃ k).trans (hslots₂ k), ?_⟩
  · rw [linkBetween, bind_of_eq_ok h₁, bind_of_eq_ok h₂]
    exact h₃
  · refine (linked_append front _).2 ⟨?_, ?_, ?_⟩
    · exact hfront₂.congr fun s hs => hother s fun e => hcut.not_front (e ▸ hs)
    · rw [hcell₃, if_pos rfl, hsame, Option.or_none, Option.or_none]
      rfl
    · exact hback₂.congr fun s hs => hother s fun e => hcut.not_back (e ▸ hs)

/-- An end that leads to a cell moves past it, and any other end stays. -/
theorem ite_or_eq_or {before after : Option Token} {t : Token} (h : before ≠ some t) :
    (if before.or (some t) = some t then after else before.or (some t)) = before.or after := by
  cases before with
  | none => exact if_pos rfl
  | some s => exact if_neg h

/-- Taking a cell out of a chain, at whatever place, returns its item and leaves the rest threaded in
the same order. -/
theorem unlink_spec {c : Chain α A} {front back : List (Token × α)} {t : Token} {x : α}
    (h : c.Threads (front ++ (t, x) :: back)) :
    ∃ c', c.unlink t = .ok (x, c') ∧ c'.Threads (front ++ back) := by
  have hcut := cut_of_nodup h.nodup
  have hperm := tokensOf_middle_perm front back t x
  obtain ⟨hfront, -, hback⟩ := (linked_append front _).1 h.linked
  -- after the release of the slot, all other cells are as before
  have herase : ∀ s, s ≠ t → cellAt (SlotMap.erase c.arena t.key) s = cellAt c.arena s := by
    intro s hs
    rw [cellAt, SlotMap.get?_erase, if_neg fun e => hs (Token.key_injective e), cellAt]
  let c₀ : Chain α A := { c with
    arena := SlotMap.erase c.arena t.key
    head := if c.head = some t then firstToken back else c.head
    tail := if c.tail = some t then lastToken front else c.tail }
  have hfront₀ : Linked (cellAt c₀.arena) none front ((firstToken ((t, x) :: back)).or none) :=
    hfront.congr fun s hs => herase s fun e => hcut.not_front (e ▸ hs)
  have hback₀ : Linked (cellAt c₀.arena) (some t) back none :=
    hback.congr fun s hs => herase s fun e => hcut.not_back (e ▸ hs)
  obtain ⟨a₁, a, h₁, h₂, hslots, -, hfront', hback'⟩ :=
    relinkNeighbours_spec hcut hfront₀ hback₀ (firstToken back) (lastToken front)
  have hlen : c.len = (front ++ back).length + 1 := by
    rw [h.len]
    simp only [List.length_append, List.length_cons]
    omega
  refine ⟨{ c₀ with arena := a, len := (front ++ back).length }, ?_, ?_⟩
  · rw [unlink, bind_of_eq_ok h.cell_eq]
    rw [bind_of_eq_ok h₁, bind_of_eq_ok h₂]
    simp only [shrink, c₀, hlen]
    rfl
  · constructor
    · exact (List.nodup_cons.1 (hperm.nodup_iff.1 h.nodup)).2
    · intro k hk
      rw [hslots, SlotMap.get?_erase] at hk
      split at hk
      · cases hk
      · rename_i hkt
        obtain ⟨s, hs, hsk⟩ := h.occupied k hk
        rcases List.mem_cons.1 (hperm.mem_iff.1 hs) with rfl | hs
        · exact absurd hsk.symm hkt
        · exact ⟨s, hs, hsk⟩
    · refine (linked_append front back).2 ⟨?_, ?_⟩
      · rwa [Option.or_none]
      · rwa [Option.or_none]
    · have hskip : firstToken front ≠ some t := fun e => hcut.not_front (mem_of_firstToken e)
      simp only [c₀, h.head, firstToken_append, firstToken_cons]
      exact ite_or_eq_or hskip
    · have hskip : lastToken back ≠ some t := fun e => hcut.not_back (mem_of_lastToken e)
      simp only [c₀, h.tail, lastToken_append, lastToken_cons, Option.or_assoc, Option.some_or]
      exact ite_or_eq_or hskip
    · rfl

end Chain

end SlotChain

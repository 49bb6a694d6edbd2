import SlotChain.Proofs.Auditing

/-!
# The audit accepts nothing else

A chain that passes the audit is well formed, whatever its arena holds and wherever its links and ends
lead. The walk along `next` alone shows it: it comes to an end, so it never meets a cell twice, and it
meets as many cells as there are, so none is left out. The walks themselves are described round by round,
without the budget that the audit gives them: each visits one cell, and no more than one cell beyond the
length of the chain is ever visited.
-/

namespace SlotChain

variable {α : Type} {A : Type → Type} [SlotMap A]

/-- Runs that start at the same token and end at an absent link are equally long, because the links
decide how a run goes on. -/
theorem Linked.length_eq {look : Token → Option (Cell α)} {before before' : Option Token}
    {cells cells' : List (Token × α)} (h : Linked look before cells none)
    (h' : Linked look before' cells' none) (hstart : firstToken cells = firstToken cells') :
    cells.length = cells'.length := by
  induction cells generalizing before before' cells' with
  | nil =>
    cases cells' with
    | nil => rfl
    | cons cell' rest' => cases hstart
  | cons cell rest ih =>
    cases cells' with
    | nil => cases hstart
    | cons cell' rest' =>
      obtain ⟨t, x⟩ := cell
      obtain ⟨t', x'⟩ := cell'
      obtain rfl : t = t' := Option.some.inj hstart
      obtain ⟨hcell, hrest⟩ := h
      obtain ⟨hcell', hrest'⟩ := h'
      rw [hcell, Option.or_none, Option.or_none] at hcell'
      have hnext : firstToken rest = firstToken rest' :=
        congrArg Cell.next (Option.some.inj hcell')
      rw [List.length_cons, List.length_cons, ih hrest hrest' hnext]

/-- A run that ends at an absent link meets no token twice. -/
theorem Linked.nodup {look : Token → Option (Cell α)} {before : Option Token}
    {cells : List (Token × α)} (h : Linked look before cells none) : (tokensOf cells).Nodup := by
  induction cells generalizing before with
  | nil => exact List.nodup_nil
  | cons cell rest ih =>
    obtain ⟨t, x⟩ := cell
    refine List.nodup_cons.2 ⟨fun hmem => ?_, ih h.2⟩
    obtain ⟨⟨s, y⟩, hin, hs⟩ := List.mem_map.1 hmem
    obtain rfl : s = t := hs
    -- a second cell with the token would start a shorter run that ends all the same
    obtain ⟨front, back, rfl⟩ := List.append_of_mem hin
    have hback := ((linked_append front ((s, y) :: back)).1 h.2).2
    have hlength := h.length_eq hback rfl
    simp only [List.length_cons, List.length_append] at hlength
    omega

/-- Distinct tokens that name cells name all of them, if they are as many as there are. -/
theorem mem_of_size_eq {a : A α} {ts : List Token} (hnodup : ts.Nodup)
    (hlive : ∀ t ∈ ts, (SlotMap.get? a t.key).isSome) (hsize : ts.length = SlotMap.size a) {k : Nat}
    (hk : (SlotMap.get? a k).isSome) : ∃ t ∈ ts, t.key = k := by
  have hkeys : (ts.map Token.key).Nodup := hnodup.map fun _ _ => Token.key_injective
  have hsub : ts.map Token.key ⊆ SlotMap.keys a := by
    intro j hj
    obtain ⟨t, ht, rfl⟩ := List.mem_map.1 hj
    exact (SlotMap.mem_keys a t.key).2 (hlive t ht)
  have hlength : (ts.map Token.key).length = (SlotMap.keys a).length := by
    rw [List.length_map, hsize, SlotMap.size_eq]
  have hperm := (hkeys.subperm hsub).perm_of_length_le (Nat.le_of_eq hlength.symm)
  exact List.mem_map.1 (hperm.mem_iff.2 ((SlotMap.mem_keys a k).2 hk))

namespace Chain

/-! ### From the verdict to the order of the cells -/

/-- A walk along `next` that comes to an end has met a linked run of cells. -/
theorem run_of_trail {c : Chain α A} {budget steps : Nat} {before cursor last : Option Token}
    (h : c.trail Cell.next Cell.prev budget before cursor = some (last, steps)) :
    ∃ cells, Linked (cellAt c.arena) before cells none ∧ firstToken cells = cursor ∧
      (lastToken cells).or before = last ∧ cells.length = steps := by
  induction budget generalizing before cursor steps with
  | zero =>
    cases cursor with
    | none =>
      cases h
      exact ⟨[], trivial, rfl, rfl, rfl⟩
    | some t => cases h
  | succ budget ih =>
    cases cursor with
    | none =>
      cases h
      exact ⟨[], trivial, rfl, rfl, rfl⟩
    | some t =>
      rw [trail] at h
      split at h
      · cases h
      · rename_i cell hcell
        split at h
        · rename_i hback
          obtain ⟨⟨last', steps'⟩, hrest, heq⟩ := Option.map_eq_some_iff.1 h
          cases heq
          obtain ⟨cells, hlinked, hfirst, hlast, hlength⟩ := ih hrest
          refine ⟨(t, cell.item) :: cells, ⟨?_, hlinked⟩, rfl, ?_, ?_⟩
          · rw [cellAt, hcell, hfirst, Option.or_none, ← hback]
          · rw [lastToken_cons, Option.or_assoc, Option.some_or, hlast]
          · rw [List.length_cons, hlength]
        · cases h

/-- A chain that passes the audit is threaded through a run of cells. -/
theorem threads_of_sound {c : Chain α A} (h : c.sound = true) : ∃ cells, c.Threads cells := by
  simp only [sound, Bool.and_eq_true, beq_iff_eq] at h
  obtain ⟨⟨⟨⟨⟨⟨-, hsize⟩, -⟩, -⟩, -⟩, hwalk⟩, -⟩ := h
  obtain ⟨cells, hlinked, hfirst, hlast, hlength⟩ := run_of_trail hwalk
  rw [Option.or_none] at hlast
  refine ⟨cells, hlinked.nodup, fun k hk => ?_, hlinked, hfirst.symm, hlast.symm, hlength.symm⟩
  refine mem_of_size_eq hlinked.nodup (fun t ht => hlinked.isSome ht) ?_ hk
  rw [tokensOf, List.length_map, hlength, hsize]

/-- A token leads to the cell that it names. -/
theorem cellAt_of_cell {c : Chain α A} {t : Token} {cell : Cell α} (h : c.cell t = .ok cell) :
    cellAt c.arena t = some cell := by
  rw [Chain.cell] at h
  split at h
  · rename_i found hfound
    cases h
    exact hfound
  · cases h

/-- A list of tokens in the order of a well-formed chain is a linked run, from any of them on. -/
theorem WellFormed.run {c : Chain α A} {ts : List Token} (h : c.WellFormed ts) (front back : List Token)
    (hcut : ts = front ++ back) :
    ∃ cells, tokensOf cells = back ∧ Linked (cellAt c.arena) front.getLast? cells none := by
  induction back generalizing front with
  | nil => exact ⟨[], rfl, trivial⟩
  | cons t rest ih =>
    obtain ⟨cells, htokens, hlinked⟩ := ih (front ++ [t]) (by rw [hcut, List.append_assoc]; rfl)
    rw [List.getLast?_concat] at hlinked
    have ht : ts[front.length]? = some t := by
      rw [hcut, List.getElem?_append_right (Nat.le_refl _), Nat.sub_self]
      rfl
    have hnext : ts[front.length + 1]? = firstToken cells := by
      rw [hcut, List.getElem?_append_right (Nat.le_add_right _ _), Nat.add_sub_cancel_left,
        firstToken_eq_head?, htokens, List.getElem?_cons_succ, List.head?_eq_getElem?]
    have hprev : (if front.length = 0 then none else ts[front.length - 1]?) = front.getLast? := by
      rcases List.eq_nil_or_concat' front with rfl | ⟨init, s, rfl⟩
      · rfl
      · rw [if_neg (by simp), List.getLast?_concat, hcut, List.length_append, List.length_singleton,
          Nat.add_sub_cancel, List.append_assoc, List.getElem?_append_right (Nat.le_refl _),
          Nat.sub_self]
        rfl
    obtain ⟨x, hx⟩ := h.links front.length t ht
    refine ⟨(t, x) :: cells, by rw [tokensOf_cons, htokens], ?_, hlinked⟩
    rw [cellAt_of_cell hx, hprev, hnext, Option.or_none]

/-- A well-formed chain is threaded through a run of cells. -/
theorem WellFormed.threads {c : Chain α A} {ts : List Token} (h : c.WellFormed ts) :
    ∃ cells, tokensOf cells = ts ∧ c.Threads cells := by
  obtain ⟨cells, rfl, hlinked⟩ := h.run [] ts rfl
  refine ⟨cells, rfl, h.nodup, fun k => (h.occupied k).1, hlinked, ?_, ?_, ?_⟩
  · rw [h.head, firstToken_eq_head?]
  · rw [h.tail, lastToken_eq_getLast?]
  · rw [h.len, tokensOf, List.length_map]

/-! ### The walks, round by round -/

/-- Where a walk stands. -/
structure Stage where
  /-- The cell that the walk comes from, if it has met one. -/
  before : Option Token
  /-- The cell that it meets next, if there is one. -/
  cursor : Option Token
  /-- How many cells it has counted. -/
  steps : Nat

/-- The stage of a walk that has come to an absent link: what it counted before, and what it found. -/
def Stage.atEnd (steps : Nat) (found : Option Token × Nat) : Stage :=
  ⟨found.1, none, steps + found.2⟩

/-- Visit a cell: look it up, check the link back to where the walk comes from, and count it. A walk that
has counted more cells than the chain claims to have is given up, as one that meets a stale or a wrong
link is. -/
def visit (c : Chain α A) (onward backward : Cell α → Option Token) (s : Stage) (t : Token) :
    Option Stage :=
  match SlotMap.get? c.arena t.key with
  | none => none
  | some cell =>
    if backward cell = s.before ∧ s.steps + 1 ≤ c.len then
      some ⟨some t, onward cell, s.steps + 1⟩
    else none

/-- A walk goes on from a stage by visiting cells, the one included at which it is given up. -/
inductive Walk (c : Chain α A) (onward backward : Cell α → Option Token) :
    Stage → List Token → Option Stage → Prop
  /-- No more cells are visited, or not yet. -/
  | rest (s : Stage) : Walk c onward backward s [] (some s)
  /-- The walk is given up. -/
  | fail {s : Stage} {t : Token} (hcursor : s.cursor = some t)
    (hvisit : c.visit onward backward s t = none) : Walk c onward backward s [t] none
  /-- The cell is in order, and the walk goes on behind it. -/
  | next {s s' : Stage} {t : Token} {ts : List Token} {r : Option Stage}
    (hcursor : s.cursor = some t) (hvisit : c.visit onward backward s t = some s')
    (hrest : Walk c onward backward s' ts r) : Walk c onward backward s (t :: ts) r

variable {c : Chain α A} {onward backward : Cell α → Option Token}

/-- A cell that is in order is counted within the length of the chain. -/
theorem steps_of_visit {s s' : Stage} {t : Token} (h : c.visit onward backward s t = some s') :
    s'.steps = s.steps + 1 ∧ s'.steps ≤ c.len := by
  rw [visit] at h
  split at h
  · cases h
  · split at h
    · rename_i hgood
      cases h
      exact ⟨rfl, hgood.2⟩
    · cases h

/-- A walk visits at most one cell more than the chain claims to have, those counted before included. -/
theorem Walk.length_le {s : Stage} {ts : List Token} {r : Option Stage}
    (h : Walk c onward backward s ts r) (hsteps : s.steps ≤ c.len) :
    s.steps + ts.length ≤ c.len + 1 := by
  induction h with
  | rest s => exact Nat.le_succ_of_le hsteps
  | fail => exact Nat.succ_le_succ hsteps
  | next hcursor hvisit hrest ih =>
    obtain ⟨hcount, hle⟩ := steps_of_visit hvisit
    have hmore := ih hle
    rw [List.length_cons]
    omega

/-- The audit reads off what the walk comes to: its budget is what is left of the length. -/
theorem exists_walk_of_trail {before cursor : Option Token} {steps budget : Nat}
    (hbudget : steps + budget = c.len) :
    ∃ ts, Walk c onward backward ⟨before, cursor, steps⟩ ts
      ((c.trail onward backward budget before cursor).map (Stage.atEnd steps)) := by
  induction budget generalizing before cursor steps with
  | zero =>
    cases cursor with
    | none => exact ⟨[], .rest _⟩
    | some t =>
      have hover : ¬steps + 1 ≤ c.len := by omega
      have hfull : c.visit onward backward ⟨before, some t, steps⟩ t = none := by
        rw [visit]
        split
        · rfl
        · exact if_neg fun hgood => hover hgood.2
      exact ⟨[t], .fail rfl hfull⟩
  | succ budget ih =>
    cases cursor with
    | none => exact ⟨[], .rest _⟩
    | some t =>
      rw [trail]
      cases hcell : SlotMap.get? c.arena t.key with
      | none => exact ⟨[t], .fail rfl (by simp only [visit, hcell])⟩
      | some cell =>
        by_cases hback : backward cell = before
        · have hcount : steps + 1 ≤ c.len := by omega
          have hvisit : c.visit onward backward ⟨before, some t, steps⟩ t =
              some ⟨some t, onward cell, steps + 1⟩ := by
            simp only [visit, hcell, hback, hcount, and_self, if_true]
          have hshorter : steps + 1 + budget = c.len := by omega
          obtain ⟨ts, hrest⟩ := @ih (some t) (onward cell) (steps + 1) hshorter
          have hcounted : (Stage.atEnd steps) ∘ (fun found => (found.1, found.2 + 1)) =
              Stage.atEnd (steps + 1) := by
            funext found
            simp only [Function.comp_apply, Stage.atEnd, Nat.add_assoc, Nat.add_comm 1]
          refine ⟨t :: ts, .next rfl hvisit ?_⟩
          simp only [if_pos hback, Option.map_map, hcounted]
          exact hrest
        · refine ⟨[t], ?_⟩
          simp only [if_neg hback]
          exact .fail rfl (by simp only [visit, hcell, hback, false_and, if_false])

/-- A walk of the audit from one end of a chain. -/
structure Bounded (c : Chain α A) (onward backward : Cell α → Option Token) (start : Option Token) :
    Prop where
  /-- However far it has come, it has visited at most one cell beyond the length. -/
  visits : ∀ ts r, Walk c onward backward ⟨none, start, 0⟩ ts r → ts.length ≤ c.len + 1
  /-- It comes to an absent link or is given up, and this is what the audit goes by. -/
  verdict : ∃ ts, Walk c onward backward ⟨none, start, 0⟩ ts
    ((c.trail onward backward c.len none start).map (Stage.atEnd 0))

/-- Every walk is bounded, on every chain. -/
theorem bounded (c : Chain α A) (onward backward : Cell α → Option Token) (start : Option Token) :
    c.Bounded onward backward start where
  visits ts r h := by
    have hle := h.length_le (Nat.zero_le _)
    rwa [Nat.zero_add] at hle
  verdict := exists_walk_of_trail (Nat.zero_add c.len)

/-- A chain in any state whatsoever passes the audit if and only if it is well formed. Neither walk of the
audit visits more than one cell beyond the length of the chain. -/
theorem audit_exact (c : Chain α A) :
    (c.audit = .ok () ↔ ∃ ts, c.WellFormed ts) ∧ c.Bounded Cell.next Cell.prev c.head ∧
      c.Bounded Cell.prev Cell.next c.tail := by
  refine ⟨⟨fun haudit => ?_, ?_⟩, c.bounded _ _ _, c.bounded _ _ _⟩
  · have hsound : c.sound = true := by
      by_contra hfalse
      rw [audit, if_neg hfalse] at haudit
      cases haudit
    obtain ⟨cells, hcells⟩ := threads_of_sound hsound
    exact ⟨_, hcells.wellFormed⟩
  · rintro ⟨ts, hts⟩
    obtain ⟨cells, -, hcells⟩ := hts.threads
    exact hcells.audit

end Chain

end SlotChain

import SlotChain.Proofs.Locality

/-!
# Taking out any cell

A cell can be taken out of a chain wherever it stands: between two others, at one end, or as the only one.
Whatever led to the cell leads past it afterwards, to where the cell's own link on that side leads, and
this is all that happens to the rest. The rest keeps its order, and no token of the cell is left anywhere.
-/

namespace SlotChain

variable {α : Type} {A : Type → Type} [SlotMap A]

/-- Where a link leads past a cell: a link to the cell goes on to where the cell's own link leads. -/
def linkPast (t : Token) (onward link : Option Token) : Option Token :=
  if link = some t then onward else link

/-- A cell whose links lead past one that is gone. -/
def Cell.past (t : Token) (gone cell : Cell α) : Cell α :=
  { cell with
    prev := linkPast t gone.prev cell.prev
    next := linkPast t gone.next cell.next }

@[simp] theorem linkPast_self (t : Token) (onward : Option Token) :
    linkPast t onward (some t) = onward := if_pos rfl

theorem linkPast_of_ne {t : Token} {onward link : Option Token} (h : link ≠ some t) :
    linkPast t onward link = link := if_neg h

/-- Leading past a cell undoes that a link was set to the cell in place of the cell's own link. -/
theorem linkPast_ite {t : Token} {onward link : Option Token} {p : Prop} [Decidable p]
    (hlink : link ≠ some t) (honward : p → link = onward) :
    linkPast t onward (if p then some t else link) = link := by
  split
  · rename_i hp
    rw [linkPast_self, honward hp]
  · exact linkPast_of_ne hlink

namespace Chain

/-- One chain is another without the cell of a token. -/
structure Bypasses (d c : Chain α A) (t : Token) (gone : Cell α) : Prop where
  /-- The token named this cell in the other chain. -/
  cell : c.cell t = .ok gone
  /-- Its slot is vacant, and no other slot was filled or vacated. -/
  freed : ∀ k, (SlotMap.get? d.arena k).isSome ↔ (SlotMap.get? c.arena k).isSome ∧ k ≠ t.key
  /-- Neither an end nor a link leads to the cell. -/
  forgotten : ¬ d.Mentions t
  /-- All other cells have their items, and links that lead past the cell. -/
  others : ∀ s, s ≠ t → cellAt d.arena s = (cellAt c.arena s).map (Cell.past t gone)
  /-- The head leads past the cell. -/
  head : d.head = linkPast t gone.next c.head
  /-- The tail leads past the cell. -/
  tail : d.tail = linkPast t gone.prev c.tail
  /-- There is one cell less. -/
  len : d.len + 1 = c.len

section

variable {c d : Chain α A} {front back : List (Token × α)} {t : Token} {x : α}

/-- A chain mentions no tokens but those of its cells. -/
theorem Threads.not_mentions {cells : List (Token × α)} (h : d.Threads cells)
    (ht : t ∉ tokensOf cells) : ¬ d.Mentions t := fun hmentions =>
  ht (h.wellFormed.mem_of_mentions hmentions)

/-- A cell that stands behind the cut of a run comes after the last one in front of it. -/
theorem Threads.prev_of_firstToken (h : d.Threads (front ++ back)) {s : Token} {cell : Cell α}
    (hs : firstToken back = some s) (hcell : cellAt d.arena s = some cell) :
    cell.prev = lastToken front := by
  cases back with
  | nil => cases hs
  | cons first rest =>
    cases hs
    have heq := h.cell_eq
    rw [cell_of_cellAt hcell] at heq
    cases heq
    rfl

/-- A cell that stands in front of the cut of a run comes before the first one behind it. -/
theorem Threads.next_of_lastToken (h : d.Threads (front ++ back)) {s : Token} {cell : Cell α}
    (hs : lastToken front = some s) (hcell : cellAt d.arena s = some cell) :
    cell.next = firstToken back := by
  rcases List.eq_nil_or_concat' front with rfl | ⟨init, last, rfl⟩
  · cases hs
  · rw [lastToken_concat] at hs
    cases hs
    rw [List.append_assoc, List.singleton_append] at h
    have heq := h.cell_eq
    rw [cell_of_cellAt hcell] at heq
    cases heq
    rfl

/-- A chain that keeps all cells of another but one has vacated the slot of that one. -/
theorem Threads.isSome_iff_and_ne (h : c.Threads (front ++ (t, x) :: back))
    (hd : d.Threads (front ++ back)) (k : Nat) :
    (SlotMap.get? d.arena k).isSome ↔ (SlotMap.get? c.arena k).isSome ∧ k ≠ t.key := by
  have hkeys := hd.keys_perm h
  obtain ⟨hvacant, -⟩ := List.nodup_cons.1 (hkeys.nodup_iff.1 (SlotMap.nodup_keys _))
  rw [← SlotMap.mem_keys, ← SlotMap.mem_keys, hkeys.mem_iff, List.mem_cons]
  constructor
  · intro hk
    refine ⟨.inr hk, ?_⟩
    rintro rfl
    exact hvacant hk
  · rintro ⟨hk, hne⟩
    exact hk.resolve_left hne

/-- A chain that keeps all cells of another but one has only changed the links to that one. -/
theorem Threads.cellAt_past (h : c.Threads (front ++ (t, x) :: back)) (hd : d.Threads (front ++ back))
    (hgone : ¬ d.Mentions t) {s : Token} (hs : s ≠ t) :
    cellAt d.arena s =
      (cellAt c.arena s).map (Cell.past t ⟨lastToken front, firstToken back, x⟩) := by
  rw [hd.cellAt_eq h hs, Option.map_map]
  cases hcell : cellAt d.arena s with
  | none => rfl
  | some cell =>
    have hprev : cell.prev ≠ some t := fun heq => hgone (.prev hcell heq)
    have hnext : cell.next ≠ some t := fun heq => hgone (.next hcell heq)
    have hback : firstToken back = some s → cell.prev = lastToken front := fun hfirst =>
      hd.prev_of_firstToken hfirst hcell
    have hfront : lastToken front = some s → cell.next = firstToken back := fun hlast =>
      hd.next_of_lastToken hlast hcell
    simp only [Option.map_some, Function.comp_apply, Cell.past, linkPast_ite hprev hback,
      linkPast_ite hnext hfront]

/-- A chain that keeps all cells of another but one, in the same order, bypasses that one. -/
theorem Threads.bypasses (h : c.Threads (front ++ (t, x) :: back)) (hd : d.Threads (front ++ back)) :
    d.Bypasses c t ⟨lastToken front, firstToken back, x⟩ := by
  have hcut := cut_of_nodup h.nodup
  have hgone : ¬ d.Mentions t := hd.not_mentions fun hmem =>
    (List.mem_append.1 (tokensOf_append front back ▸ hmem)).elim hcut.not_front hcut.not_back
  have hfirst : firstToken front ≠ some t := fun heq => hcut.not_front (mem_of_firstToken heq)
  have hlast : lastToken back ≠ some t := fun heq => hcut.not_back (mem_of_lastToken heq)
  exact
    { cell := h.cell_eq
      freed := h.isSome_iff_and_ne hd
      forgotten := hgone
      others := fun _ hs => h.cellAt_past hd hgone hs
      head := by
        rw [hd.head, h.head, firstToken_append, firstToken_append, firstToken_cons, linkPast,
          ite_or_eq_or hfirst]
      tail := by
        rw [hd.tail, h.tail, lastToken_append, lastToken_append, lastToken_cons, Option.or_assoc,
          Option.some_or, linkPast, ite_or_eq_or hlast]
      len := by
        rw [hd.len, h.len]
        simp only [List.length_append, List.length_cons]
        omega }

end

/-- Any cell of a well-formed chain can be taken out, be it an inner one, one at an end or the only one. Its
item is the answer. The chain that is left is threaded through the other cells in the same order, and
bypasses the one that was taken out. -/
theorem unlink_anywhere {c : Chain α A} {cells : List (Token × α)} (h : c.Threads cells) {i : Nat}
    (hi : i < cells.length) :
    ∃ d gone, c.unlink cells[i].1 = .ok (cells[i].2, d) ∧ gone.item = cells[i].2 ∧
      d.Threads (cells.eraseIdx i) ∧ d.Bypasses c cells[i].1 gone := by
  have hcut : cells = cells.take i ++ (cells[i].1, cells[i].2) :: cells.drop (i + 1) := by
    rw [List.getElem_cons_drop, List.take_append_drop]
  have hcells := hcut ▸ h
  obtain ⟨d, hunlink, hd⟩ := unlink_spec hcells
  refine ⟨d, _, hunlink, rfl, ?_, hcells.bypasses hd⟩
  rwa [List.eraseIdx_eq_take_drop_succ]

/-- Three numbers, the inner one of which stands in a slot that was given up before. That one is taken
out, and after it the one at the head. -/
theorem unlink_anywhere_numbers :
    ∃ (c d e : Chain Int) (r s t : Token) (inner first : Cell Int),
      ListStep.performAll [.append 1, .append 2, .deleteHead, .append 3, .append 4] .empty =
        (c, .ok [.done, .done, .item (some 1), .done, .done]) ∧
      c.Threads [(r, 2), (s, 3), (t, 4)] ∧
      c.unlink s = .ok (3, d) ∧ d.Threads [(r, 2), (t, 4)] ∧ d.Bypasses c s inner ∧
      d.unlink r = .ok (2, e) ∧ e.Threads [(t, 4)] ∧ e.Bypasses d r first := by
  obtain ⟨c, hrun, -, cells, hcells, hitems⟩ := Reachable.of_steps (A := Arena)
    [.append 1, .append 2, .deleteHead, .append 3, .append (4 : Int)] (by decide)
  obtain ⟨⟨r, _⟩, more, rfl, rfl, hmore⟩ := List.map_eq_cons_iff.1 hitems
  obtain ⟨⟨s, _⟩, last, rfl, rfl, hlast⟩ := List.map_eq_cons_iff.1 hmore
  obtain ⟨⟨t, _⟩, rest, rfl, rfl, hrest⟩ := List.map_eq_cons_iff.1 hlast
  obtain rfl := List.map_eq_nil_iff.1 hrest
  have hinner : 1 < [(r, (2 : Int)), (s, 3), (t, 4)].length := by simp
  have hfirst : 0 < [(r, (2 : Int)), (t, 4)].length := by simp
  obtain ⟨d, inner, hunlink, -, hd, hpast⟩ := unlink_anywhere hcells hinner
  obtain ⟨e, first, hunlink', -, he, hpast'⟩ := unlink_anywhere hd hfirst
  exact ⟨c, d, e, r, s, t, inner, first, hrun, hcells, hunlink, hd, hpast, hunlink', he, hpast'⟩

end Chain

end SlotChain

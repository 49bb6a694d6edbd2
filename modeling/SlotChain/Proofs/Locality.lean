import SlotChain.Proofs.Reachable

/-!
# Mutations are local

A mutation at one end of a chain touches nothing but that end. One slot is filled or vacated. All other
cells stay in their slots with their items, and of all their links a single one changes: the outward link
of the cell that stands next to the one that comes or goes. So a token that is kept anywhere else in the
chain is as good after the mutation as before.
-/

namespace SlotChain

variable {α : Type} {A : Type → Type} [SlotMap A]

/-! ### The two ends -/

/-- One of the two ends of a chain. -/
inductive End where
  | head
  | tail
deriving Repr, DecidableEq

/-- The opposite end. -/
def End.other : End → End
  | head => tail
  | tail => head

/-- The link of a cell that leads towards an end. -/
def Cell.towards : End → Cell α → Option Token
  | .head, cell => cell.prev
  | .tail, cell => cell.next

/-- A cell with another link towards an end. -/
def Cell.linkTowards (e : End) (link : Option Token) (cell : Cell α) : Cell α :=
  match e with
  | .head => { cell with prev := link }
  | .tail => { cell with next := link }

/-- The cell that stands at an end, with the neighbour that it has on its inner side. -/
def End.outermost (e : End) (inner : Option Token) (item : α) : Cell α :=
  match e with
  | .head => ⟨none, inner, item⟩
  | .tail => ⟨inner, none, item⟩

/-- The token of the cell at an end. -/
def Chain.endAt (c : Chain α A) : End → Option Token
  | .head => c.head
  | .tail => c.tail

/-! ### What two linked runs have in common -/

/-- The cells of a run between two given tokens are determined. -/
theorem Linked.look_eq {look look' : Token → Option (Cell α)} {before after : Option Token}
    {cells : List (Token × α)} (h : Linked look before cells after)
    (h' : Linked look' before cells after) {t : Token} (ht : t ∈ tokensOf cells) :
    look' t = look t := by
  induction cells generalizing before with
  | nil => cases ht
  | cons cell rest ih =>
    rcases List.mem_cons.1 ht with rfl | ht
    · exact h'.1.trans h.1.symm
    · exact ih h.2 h'.2 ht

/-- Two runs of the same cells that lead to different tokens behind them differ in one link of the last
cell. -/
theorem Linked.look_eq_of_after {look look' : Token → Option (Cell α)}
    {before after after' : Option Token} {cells : List (Token × α)}
    (h : Linked look before cells after) (h' : Linked look' before cells after')
    (hnodup : (tokensOf cells).Nodup) {t : Token} (ht : t ∈ tokensOf cells) :
    look' t = if lastToken cells = some t then (look t).map fun cell => { cell with next := after' }
      else look t := by
  rcases List.eq_nil_or_concat' cells with rfl | ⟨front, ⟨s, x⟩, rfl⟩
  · cases ht
  · rw [tokensOf_append] at hnodup ht
    obtain ⟨hfront, hlast, -⟩ := (linked_append front _).1 h
    obtain ⟨hfront', hlast', -⟩ := (linked_append front _).1 h'
    rw [lastToken_concat]
    rcases List.mem_append.1 ht with ht | ht
    · rw [if_neg, hfront.look_eq hfront' ht]
      rintro heq
      exact (List.nodup_append.1 hnodup).2.2 t ht s (by simp [tokensOf]) (Option.some.inj heq).symm
    · obtain rfl : t = s := List.mem_singleton.1 ht
      rw [if_pos rfl, hlast, hlast']
      rfl

/-- Two runs of the same cells that come from different tokens in front of them differ in one link of the
first cell. -/
theorem Linked.look_eq_of_before {look look' : Token → Option (Cell α)}
    {before before' after : Option Token} {cells : List (Token × α)}
    (h : Linked look before cells after) (h' : Linked look' before' cells after)
    (hnodup : (tokensOf cells).Nodup) {t : Token} (ht : t ∈ tokensOf cells) :
    look' t = if firstToken cells = some t then (look t).map fun cell => { cell with prev := before' }
      else look t := by
  cases cells with
  | nil => cases ht
  | cons cell rest =>
    rw [firstToken_cons]
    rcases List.mem_cons.1 ht with rfl | ht
    · rw [if_pos rfl, h.1, h'.1]
      rfl
    · rw [if_neg, h.2.look_eq h'.2 ht]
      rintro heq
      exact (List.nodup_cons.1 hnodup).1 ((Option.some.inj heq).symm ▸ ht)

namespace Chain

/-! ### One cell more -/

section

variable {c d : Chain α A} {front back : List (Token × α)} {t : Token} {x : α}

/-- A token that a chain does not keep names no cell. -/
theorem Threads.cellAt_eq_none {cells : List (Token × α)} (h : c.Threads cells)
    (ht : t ∉ tokensOf cells) : cellAt c.arena t = none := by
  refine Option.not_isSome_iff_eq_none.1 fun hsome => ?_
  obtain ⟨s, hs, hkey⟩ := h.occupied t.key hsome
  exact ht (Token.key_injective hkey ▸ hs)

/-- Of two chains one of which has one cell more somewhere, that one occupies one slot more. -/
theorem Threads.keys_perm (h : c.Threads (front ++ back)) (h' : d.Threads (front ++ (t, x) :: back)) :
    (SlotMap.keys d.arena).Perm (t.key :: SlotMap.keys c.arena) := by
  have hperm := tokensOf_middle_perm front back t x
  obtain ⟨hfresh, -⟩ := List.nodup_cons.1 (hperm.nodup_iff.1 h'.nodup)
  have hvacant := h.cellAt_eq_none hfresh
  have hnodup : (t.key :: SlotMap.keys c.arena).Nodup := by
    refine List.nodup_cons.2 ⟨fun hmem => ?_, SlotMap.nodup_keys _⟩
    rw [SlotMap.mem_keys, ← cellAt, hvacant] at hmem
    cases hmem
  rw [List.perm_ext_iff_of_nodup (SlotMap.nodup_keys _) hnodup]
  intro k
  rw [List.mem_cons, SlotMap.mem_keys, SlotMap.mem_keys, h.occupied_iff, h'.occupied_iff]
  constructor
  · rintro ⟨s, hs, rfl⟩
    exact (List.mem_cons.1 (hperm.mem_iff.1 hs)).imp (congrArg Token.key) fun hs => ⟨s, hs, rfl⟩
  · rintro (rfl | ⟨s, hs, rfl⟩)
    · exact ⟨t, hperm.mem_iff.2 List.mem_cons_self, rfl⟩
    · exact ⟨s, hperm.mem_iff.2 (List.mem_cons_of_mem _ hs), rfl⟩

/-- Of two chains one of which has one cell more somewhere, the others differ in the links to that cell
alone. -/
theorem Threads.cellAt_eq (h : c.Threads (front ++ back))
    (h' : d.Threads (front ++ (t, x) :: back)) {s : Token} (hs : s ≠ t) :
    cellAt d.arena s = (cellAt c.arena s).map fun cell =>
      { cell with
        prev := if firstToken back = some s then some t else cell.prev
        next := if lastToken front = some s then some t else cell.next } := by
  have hcut := cut_of_nodup h'.nodup
  obtain ⟨hfront, hback⟩ := (linked_append front back).1 h.linked
  obtain ⟨hfront', -, hback'⟩ := (linked_append front _).1 h'.linked
  rw [firstToken_cons, Option.some_or] at hfront'
  by_cases hsfront : s ∈ tokensOf front
  · have hnot : firstToken back ≠ some s := fun heq => hcut.apart s hsfront (mem_of_firstToken heq)
    rw [hfront.look_eq_of_after hfront' hcut.nodup_front hsfront]
    simp only [if_neg hnot]
    split
    · rfl
    · exact Option.map_id'.symm
  have hnot : lastToken front ≠ some s := fun heq => hsfront (mem_of_lastToken heq)
  simp only [if_neg hnot]
  by_cases hsback : s ∈ tokensOf back
  · rw [hback.look_eq_of_before hback' hcut.nodup_back hsback]
    split
    · rfl
    · exact Option.map_id'.symm
  · have hnone : s ∉ tokensOf (front ++ back) := by
      rw [tokensOf_append, List.mem_append]
      exact fun hmem => hmem.elim hsfront hsback
    have hnone' : s ∉ tokensOf (front ++ (t, x) :: back) := fun hmem =>
      (List.mem_cons.1 ((tokensOf_middle_perm front back t x).mem_iff.1 hmem)).elim hs hnone
    rw [h.cellAt_eq_none hnone, h'.cellAt_eq_none hnone']
    rfl

end

/-- A chain is another with one cell more at an end. Read forwards this is an insertion, and read
backwards a deletion. -/
structure Extends (d c : Chain α A) (e : End) (t : Token) (item : α) : Prop where
  /-- The slot of the cell is vacant in the other chain. -/
  vacant : cellAt c.arena t = none
  /-- No other slot is occupied in the one chain and vacant in the other. -/
  keys : (SlotMap.keys d.arena).Perm (t.key :: SlotMap.keys c.arena)
  /-- The cell has the end of the other chain next to it, and nothing on its outer side. -/
  cell : d.cell t = .ok (e.outermost (c.endAt e) item)
  /-- All other cells have the same slots, the same items and the same links, but for the link to the
  cell. -/
  others : ∀ s, s ≠ t → cellAt d.arena s =
    (cellAt c.arena s).map fun cell => if c.endAt e = some s then cell.linkTowards e (some t) else cell
  /-- In the other chain that link leads nowhere. -/
  outward : ∀ s cell, c.endAt e = some s → c.cell s = .ok cell → cell.towards e = none
  /-- The cell stands at the end. -/
  near : d.endAt e = some t
  /-- The opposite ends are the same, unless the other chain is empty. -/
  far : d.endAt e.other = if c.len = 0 then some t else c.endAt e.other
  /-- The other chain has no end on either side exactly if it is empty. -/
  ends : ∀ e', c.endAt e' = none ↔ c.len = 0
  /-- The lengths differ by one. -/
  len : d.len = c.len + 1

/-- A chain has both ends unless it is empty. -/
theorem Threads.endAt_eq_none_iff {c : Chain α A} {cells : List (Token × α)} (h : c.Threads cells)
    (e : End) : c.endAt e = none ↔ c.len = 0 := by
  obtain ⟨hfirst, hlast⟩ := isNone_ends cells
  rw [h.len, ← Option.isNone_iff_eq_none, ← Nat.beq_eq_true_eq]
  cases e with
  | head => rw [endAt, h.head, hfirst]
  | tail => rw [endAt, h.tail, hlast]

section

variable {c d : Chain α A} {cells : List (Token × α)} {t : Token} {x : α}

/-- One cell more at the head. -/
theorem Threads.extends_head (h : c.Threads cells) (h' : d.Threads ((t, x) :: cells)) :
    d.Extends c .head t x := by
  have hc : c.Threads ([] ++ cells) := h
  have hd : d.Threads ([] ++ (t, x) :: cells) := h'
  exact
    { vacant := h.cellAt_eq_none (List.nodup_cons.1 h'.nodup).1
      keys := hc.keys_perm hd
      cell := by
        rw [hd.cell_eq]
        simp only [End.outermost, endAt, h.head, lastToken_nil]
      others := by
        intro s hs
        rw [hc.cellAt_eq hd hs]
        congr 1
        funext cell
        simp only [endAt, h.head, Cell.linkTowards, lastToken_nil, reduceCtorEq, if_false]
        split <;> rfl
      outward := by
        intro s cell hs hcell
        cases cells with
        | nil =>
          rw [endAt, h.head] at hs
          cases hs
        | cons first rest =>
          rw [endAt, h.head, firstToken_cons] at hs
          cases hs
          rw [hc.cell_eq] at hcell
          cases hcell
          rfl
      near := h'.head
      far := by
        rw [End.other, endAt, endAt, h.tail, h'.tail, h.len, lastToken_cons]
        cases cells with
        | nil => rfl
        | cons first rest =>
          rw [lastToken_cons, Option.or_assoc, Option.some_or]
          rfl
      ends := h.endAt_eq_none_iff
      len := by rw [h.len, h'.len, List.length_cons] }

/-- One cell more at the tail. -/
theorem Threads.extends_tail (h : c.Threads cells) (h' : d.Threads (cells ++ [(t, x)])) :
    d.Extends c .tail t x := by
  have hc : c.Threads (cells ++ []) := by rwa [List.append_nil]
  have hcut := cut_of_nodup h'.nodup
  exact
    { vacant := h.cellAt_eq_none hcut.not_front
      keys := Threads.keys_perm hc h'
      cell := by
        rw [Threads.cell_eq h']
        simp only [End.outermost, endAt, h.tail, firstToken_nil]
      others := by
        intro s hs
        rw [Threads.cellAt_eq hc h' hs]
        congr 1
        funext cell
        simp only [endAt, h.tail, Cell.linkTowards, firstToken_nil, reduceCtorEq, if_false]
        split <;> rfl
      outward := by
        intro s cell hs hcell
        rcases List.eq_nil_or_concat' cells with rfl | ⟨front, last, rfl⟩
        · rw [endAt, h.tail] at hs
          cases hs
        · rw [endAt, h.tail, lastToken_concat] at hs
          cases hs
          rw [Threads.cell_eq h] at hcell
          cases hcell
          rfl
      near := by rw [endAt, h'.tail, lastToken_concat]
      far := by
        rw [End.other, endAt, endAt, h.head, h'.head, h.len]
        cases cells <;> rfl
      ends := h.endAt_eq_none_iff
      len := by rw [h.len, h'.len, List.length_append, List.length_singleton] }

end

/-- What every mutation of a chain does to it. -/
structure MutatesLocally (c : Chain α A) : Prop where
  /-- Prepending adds a cell at the head, if it is not refused for want of room. -/
  prepend : ∀ x, (Chain.prepend x c = .error .capacityOverflow ∧
      SlotMap.room A ≤ SlotMap.size c.arena) ∨
    ∃ t d, Chain.prepend x c = .ok ⟨(), d, [.mutated .prepend d.len]⟩ ∧ d.Extends c .head t x
  /-- Appending adds a cell at the tail, if it is not refused for want of room. -/
  append : ∀ x, (Chain.append x c = .error .capacityOverflow ∧
      SlotMap.room A ≤ SlotMap.size c.arena) ∨
    ∃ t d, Chain.append x c = .ok ⟨(), d, [.mutated .append d.len]⟩ ∧ d.Extends c .tail t x
  /-- Deleting the head of an empty chain changes nothing at all. -/
  deleteHead_empty : c.len = 0 → Chain.deleteHead c = .ok ⟨none, c, []⟩
  /-- Deleting the head of any other takes a cell off at the head. -/
  deleteHead : c.len ≠ 0 → ∃ t x d,
    Chain.deleteHead c = .ok ⟨some x, d, [.mutated .deleteHead d.len]⟩ ∧ c.Extends d .head t x
  /-- Deleting the tail of an empty chain changes nothing at all. -/
  deleteTail_empty : c.len = 0 → Chain.deleteTail c = .ok ⟨none, c, []⟩
  /-- Deleting the tail of any other takes a cell off at the tail. -/
  deleteTail : c.len ≠ 0 → ∃ t x d,
    Chain.deleteTail c = .ok ⟨some x, d, [.mutated .deleteTail d.len]⟩ ∧ c.Extends d .tail t x

/-- A chain that holds some items is mutated at its ends alone. -/
theorem Threads.mutatesLocally {c : Chain α A} {cells : List (Token × α)} (h : c.Threads cells) :
    c.MutatesLocally where
  prepend x := by
    rw [h.size_eq]
    refine (h.prepend x).imp_right ?_
    rintro ⟨t, d, hok, hd⟩
    refine ⟨t, d, ?_, h.extends_head hd⟩
    rw [hok, hd.len, List.length_cons]
  append x := by
    rw [h.size_eq]
    refine (h.append x).imp_right ?_
    rintro ⟨t, d, hok, hd⟩
    refine ⟨t, d, ?_, h.extends_tail hd⟩
    rw [hok, hd.len, List.length_append, List.length_singleton]
  deleteHead_empty hlen := by
    rw [h.len, List.length_eq_zero_iff] at hlen
    subst hlen
    exact Holds.deleteHead_nil ⟨[], h, rfl⟩
  deleteHead hlen := by
    rw [h.len] at hlen
    obtain ⟨⟨t, x⟩, rest, rfl⟩ := List.exists_cons_of_length_pos (Nat.pos_of_ne_zero hlen)
    obtain ⟨d, hok, hd⟩ := h.deleteHead
    refine ⟨t, x, d, ?_, hd.extends_head h⟩
    rw [hok, hd.len]
  deleteTail_empty hlen := by
    rw [h.len, List.length_eq_zero_iff] at hlen
    subst hlen
    exact Holds.deleteTail_nil ⟨[], h, rfl⟩
  deleteTail hlen := by
    rw [h.len] at hlen
    rcases List.eq_nil_or_concat' cells with rfl | ⟨front, ⟨t, x⟩, rfl⟩
    · exact absurd rfl hlen
    · obtain ⟨d, hok, hd⟩ := h.deleteTail
      refine ⟨t, x, d, ?_, hd.extends_tail h⟩
      rw [hok, hd.len]

namespace Reachable

variable [Item α]

/-- Every mutation of a reachable chain adds or takes off one cell at its end of the chain, and changes of
all other cells no more than one link of the cell next to that. -/
theorem mutates_locally {c : Chain α A} (h : c.Reachable) : c.MutatesLocally := by
  obtain ⟨xs, cells, hcells, -⟩ := h.holds
  exact hcells.mutatesLocally

/-- Two numbers, one of them in a slot that was given up before. A third is put in front, and one is taken
off behind. -/
theorem mutates_locally_numbers :
    ∃ c : Chain Int,
      ListStep.performAll [.append 1, .deleteHead, .prepend 2, .append 3] .empty =
        (c, .ok [.done, .item (some 1), .done, .done]) ∧
      c.Reachable ∧ c.MutatesLocally ∧
      (∃ t d, Chain.prepend 4 c = .ok ⟨(), d, [.mutated .prepend d.len]⟩ ∧ d.Extends c .head t 4) ∧
      ∃ t x d, Chain.deleteTail c = .ok ⟨some x, d, [.mutated .deleteTail d.len]⟩ ∧
        c.Extends d .tail t x := by
  obtain ⟨c, hrun, hreach, hc⟩ :=
    of_steps (A := Arena) [.append 1, .deleteHead, .prepend 2, .append (3 : Int)] (by decide)
  have hlocal := mutates_locally hreach
  have hlen : c.len = 2 := hc.len_eq
  refine ⟨c, hrun, hreach, hlocal, (hlocal.prepend 4).resolve_left ?_, hlocal.deleteTail ?_⟩
  · rintro ⟨-, hfull⟩
    obtain ⟨cells, hcells, -⟩ := hc
    rw [hcells.size_eq, ← hcells.len, hlen] at hfull
    exact absurd hfull (by decide)
  · rw [hlen]
    decide

end Reachable

end Chain

end SlotChain

import SlotChain.Proofs.Linkage
import Mathlib.Data.List.Nodup
import Mathlib.Data.List.Perm.Subperm

/-!
# Well-formed chains

A chain is well formed if a list of distinct tokens names exactly the occupied slots of its arena, runs
from its head to its tail along the links in both directions, and is as long as the chain says. The
proofs keep the items beside the tokens, as a run of linked cells; the items alone are the sequence that
the chain stands for.
-/

namespace SlotChain

variable {α : Type} {A : Type → Type} [SlotMap A]

/-- The cell that a token names in an arena, if the slot is occupied. -/
def cellAt (a : A (Cell α)) (t : Token) : Option (Cell α) := SlotMap.get? a t.key

/-- Distinct tokens are fewer than there are words, because each stands for a nonzero word. -/
theorem length_lt_of_nodup {ts : List Token} (h : ts.Nodup) : ts.length < wordLimit := by
  have hbound : ∀ n, (∀ t ∈ ts, t.key < n) → ts.length ≤ n := by
    intro n hlt
    have hkeys : (ts.map Token.key).Nodup := h.map fun _ _ => Token.key_injective
    have hsub : ts.map Token.key ⊆ List.range n := by
      intro k hk
      obtain ⟨t, ht, rfl⟩ := List.mem_map.1 hk
      exact List.mem_range.2 (hlt t ht)
    have hle := (hkeys.subperm hsub).length_le
    rwa [List.length_map, List.length_range] at hle
  have hle := hbound (wordLimit - 1) fun t _ => by
    have hlt := t.number_lt
    rw [← t.key_succ] at hlt
    omega
  have hpos : 0 < wordLimit := by decide
  omega

/-- The number of entries of a slot map is the length of any list that names each entry once. -/
theorem size_eq_length {a : A α} {ts : List Token} (hnodup : ts.Nodup)
    (hmem : ∀ k, (SlotMap.get? a k).isSome ↔ ∃ t ∈ ts, t.key = k) :
    SlotMap.size a = ts.length := by
  have hkeys : (ts.map Token.key).Nodup := hnodup.map fun _ _ => Token.key_injective
  have hperm : (SlotMap.keys a).Perm (ts.map Token.key) := by
    rw [List.perm_ext_iff_of_nodup (SlotMap.nodup_keys a) hkeys]
    intro k
    rw [SlotMap.mem_keys, hmem, List.mem_map]
  rw [SlotMap.size_eq, hperm.length_eq, List.length_map]

namespace Chain

/-- The order of the tokens, the two ends, the links and the length of a chain all agree. -/
structure WellFormed (c : Chain α A) (ts : List Token) : Prop where
  /-- No token occurs twice. -/
  nodup : ts.Nodup
  /-- The tokens name exactly the occupied slots. -/
  occupied : ∀ k, (SlotMap.get? c.arena k).isSome ↔ ∃ t ∈ ts, t.key = k
  /-- The head is the first token. -/
  head : c.head = ts.head?
  /-- The tail is the last token. -/
  tail : c.tail = ts.getLast?
  /-- Each token names a cell that is linked to the tokens next to it. -/
  links : ∀ i t, ts[i]? = some t →
    ∃ x, c.cell t = .ok ⟨if i = 0 then none else ts[i - 1]?, ts[i + 1]?, x⟩
  /-- The length counts the tokens. -/
  len : c.len = ts.length

/-- A chain is threaded through a run of cells: a well-formed chain with its items laid open. -/
structure Threads (c : Chain α A) (cells : List (Token × α)) : Prop where
  /-- No token occurs twice. -/
  nodup : (tokensOf cells).Nodup
  /-- No slot is occupied outside the run. -/
  occupied : ∀ k, (SlotMap.get? c.arena k).isSome → ∃ t ∈ tokensOf cells, t.key = k
  /-- The run is linked, with nothing before and nothing after it. -/
  linked : Linked (cellAt c.arena) none cells none
  /-- The head is the first token. -/
  head : c.head = firstToken cells
  /-- The tail is the last token. -/
  tail : c.tail = lastToken cells
  /-- The length counts the cells. -/
  len : c.len = cells.length

/-- The items of a chain from head to tail are these, and the chain is well formed. -/
def Holds (c : Chain α A) (xs : List α) : Prop :=
  ∃ cells, c.Threads cells ∧ cells.map Prod.snd = xs

/-- A token that names a cell leads to it. -/
theorem cell_of_cellAt {c : Chain α A} {t : Token} {cell : Cell α}
    (h : cellAt c.arena t = some cell) : c.cell t = .ok cell := by
  unfold cellAt at h
  simp only [Chain.cell, h]

theorem threads_empty : (empty : Chain α A).Threads [] where
  nodup := List.nodup_nil
  occupied k h := by
    rw [empty, SlotMap.get?_empty] at h
    cases h
  linked := trivial
  head := rfl
  tail := rfl
  len := rfl

theorem threads_clear (c : Chain α A) : c.clear.Threads [] where
  nodup := List.nodup_nil
  occupied k h := by
    rw [clear, SlotMap.get?_clear] at h
    cases h
  linked := trivial
  head := rfl
  tail := rfl
  len := rfl

theorem holds_empty : (empty : Chain α A).Holds [] := ⟨[], threads_empty, rfl⟩

theorem holds_clear (c : Chain α A) : c.clear.Holds [] := ⟨[], threads_clear c, rfl⟩

namespace Threads

variable {c : Chain α A} {cells : List (Token × α)}

/-- The occupied slots are exactly those of the run. -/
theorem occupied_iff (h : c.Threads cells) (k : Nat) :
    (SlotMap.get? c.arena k).isSome ↔ ∃ t ∈ tokensOf cells, t.key = k := by
  constructor
  · exact h.occupied k
  · rintro ⟨t, ht, rfl⟩
    exact h.linked.isSome ht

/-- The arena holds as many cells as the chain says. -/
theorem size_eq (h : c.Threads cells) : SlotMap.size c.arena = cells.length := by
  rw [size_eq_length h.nodup h.occupied_iff, tokensOf, List.length_map]

/-- The cell at the cut of a run names the last token before it and the first after it. -/
theorem cell_eq {front back : List (Token × α)} {t : Token} {x : α}
    (h : c.Threads (front ++ (t, x) :: back)) :
    c.cell t = .ok ⟨lastToken front, firstToken back, x⟩ := by
  have hcell := h.linked.middle
  rw [Option.or_none, Option.or_none] at hcell
  exact cell_of_cellAt hcell

/-- A threaded chain is well formed. -/
theorem wellFormed (h : c.Threads cells) : c.WellFormed (tokensOf cells) where
  nodup := h.nodup
  occupied := h.occupied_iff
  head := h.head.trans (firstToken_eq_head? cells)
  tail := h.tail.trans (lastToken_eq_getLast? cells)
  links := by
    intro i t ht
    simp only [tokensOf, List.getElem?_map, Option.map_eq_some_iff, Prod.exists,
      exists_and_right, exists_eq_right] at ht
    obtain ⟨x, hx⟩ := ht
    obtain ⟨hi, hget⟩ := List.getElem?_eq_some_iff.1 hx
    have hcut : cells = cells.take i ++ (t, x) :: cells.drop (i + 1) := by
      rw [← hget, List.getElem_cons_drop, List.take_append_drop]
    have hbefore : i - 1 < (cells.map Prod.fst).length := by
      rw [List.length_map]
      omega
    refine ⟨x, ?_⟩
    rw [cell_eq (hcut ▸ h)]
    simp only [lastToken_eq_getLast?, firstToken_eq_head?, tokensOf, List.map_take, List.map_drop,
      List.getLast?_take, List.head?_drop, List.getElem?_eq_getElem hbefore, Option.some_or]
  len := by rw [h.len, tokensOf, List.length_map]

end Threads

/-- A chain that holds some items says how many there are. -/
theorem Holds.len_eq {c : Chain α A} {xs : List α} (h : c.Holds xs) : c.len = xs.length := by
  obtain ⟨cells, hcells, rfl⟩ := h
  rw [hcells.len, List.length_map]

end Chain

end SlotChain

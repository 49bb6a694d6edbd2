import SlotChain.Chain.Basic
import Mathlib.Data.List.Basic

/-!
# Linked cells

The shape of a doubly linked run of cells, stated on a look-up alone. A run is a list of tokens with
their items. It is linked if every token names a cell whose links agree with the order of the list, on
both sides, where the two outermost links lead to given tokens outside the run. Runs can be cut and
joined anywhere, and they survive every change of the look-up that spares their cells.
-/

namespace SlotChain

variable {α : Type}

/-- The first token of a run. -/
def firstToken (cells : List (Token × α)) : Option Token := cells.head?.map Prod.fst

/-- The last token of a run. -/
def lastToken (cells : List (Token × α)) : Option Token := cells.getLast?.map Prod.fst

/-- The tokens of a run in order. -/
def tokensOf (cells : List (Token × α)) : List Token := cells.map Prod.fst

@[simp] theorem firstToken_nil : firstToken ([] : List (Token × α)) = none := rfl

@[simp] theorem firstToken_cons (cell : Token × α) (rest : List (Token × α)) :
    firstToken (cell :: rest) = some cell.1 := rfl

@[simp] theorem lastToken_nil : lastToken ([] : List (Token × α)) = none := rfl

@[simp] theorem lastToken_concat (cells : List (Token × α)) (cell : Token × α) :
    lastToken (cells ++ [cell]) = some cell.1 := by
  simp only [lastToken, List.getLast?_concat, Option.map_some]

@[simp] theorem firstToken_append (front back : List (Token × α)) :
    firstToken (front ++ back) = (firstToken front).or (firstToken back) := by
  cases front <;> rfl

@[simp] theorem lastToken_append (front back : List (Token × α)) :
    lastToken (front ++ back) = (lastToken back).or (lastToken front) := by
  simp only [lastToken, List.getLast?_append]
  cases back.getLast? <;> rfl

theorem lastToken_cons (cell : Token × α) (rest : List (Token × α)) :
    lastToken (cell :: rest) = (lastToken rest).or (some cell.1) :=
  lastToken_append [cell] rest

@[simp] theorem tokensOf_cons (cell : Token × α) (rest : List (Token × α)) :
    tokensOf (cell :: rest) = cell.1 :: tokensOf rest := rfl

@[simp] theorem tokensOf_append (front back : List (Token × α)) :
    tokensOf (front ++ back) = tokensOf front ++ tokensOf back := List.map_append

/-- A cell that is put into a run adds its token. -/
theorem tokensOf_middle_perm (front back : List (Token × α)) (t : Token) (x : α) :
    (tokensOf (front ++ (t, x) :: back)).Perm (t :: tokensOf (front ++ back)) := by
  rw [tokensOf_append, tokensOf_append, tokensOf_cons]
  exact List.perm_middle

theorem firstToken_eq_head? (cells : List (Token × α)) :
    firstToken cells = (tokensOf cells).head? := by
  cases cells <;> rfl

theorem lastToken_eq_getLast? (cells : List (Token × α)) :
    lastToken cells = (tokensOf cells).getLast? := by
  simp only [lastToken, tokensOf, List.getLast?_map]

theorem mem_of_firstToken {cells : List (Token × α)} {t : Token} (h : firstToken cells = some t) :
    t ∈ tokensOf cells := by
  rw [firstToken_eq_head?] at h
  exact List.mem_of_mem_head? h

theorem mem_of_lastToken {cells : List (Token × α)} {t : Token} (h : lastToken cells = some t) :
    t ∈ tokensOf cells := by
  rw [lastToken_eq_getLast?] at h
  exact List.mem_of_getLast? h

/-- A run of cells, linked both ways, between a token before it and a token after it. -/
def Linked (look : Token → Option (Cell α)) :
    (before : Option Token) → (cells : List (Token × α)) → (after : Option Token) → Prop
  | _, [], _ => True
  | before, (t, x) :: rest, after =>
    look t = some ⟨before, (firstToken rest).or after, x⟩ ∧ Linked look (some t) rest after

/-- A run is linked if and only if its two parts are, each up to the other's nearest token. -/
theorem linked_append {look : Token → Option (Cell α)} {before after : Option Token}
    (front back : List (Token × α)) :
    Linked look before (front ++ back) after ↔
      Linked look before front ((firstToken back).or after) ∧
        Linked look ((lastToken front).or before) back after := by
  induction front generalizing before with
  | nil => simp [Linked]
  | cons cell rest ih =>
    simp only [List.cons_append, Linked, ih, firstToken_append, lastToken_cons, Option.or_assoc,
      Option.some_or, and_assoc]

/-- The cell in the middle of a linked run names both its neighbours. -/
theorem Linked.middle {look : Token → Option (Cell α)} {before after : Option Token}
    {front back : List (Token × α)} {t : Token} {x : α}
    (h : Linked look before (front ++ (t, x) :: back) after) :
    look t = some ⟨(lastToken front).or before, (firstToken back).or after, x⟩ :=
  ((linked_append front _).1 h).2.1

/-- Every token of a linked run names a cell. -/
theorem Linked.isSome {look : Token → Option (Cell α)} {before after : Option Token}
    {cells : List (Token × α)} (h : Linked look before cells after) {t : Token}
    (ht : t ∈ tokensOf cells) : (look t).isSome := by
  obtain ⟨⟨s, x⟩, hmem, rfl⟩ := List.mem_map.1 ht
  obtain ⟨front, back, rfl⟩ := List.append_of_mem hmem
  rw [h.middle]
  rfl

/-- A run stays linked if the look-up changes elsewhere only. -/
theorem Linked.congr {look look' : Token → Option (Cell α)} {before after : Option Token}
    {cells : List (Token × α)} (h : Linked look before cells after)
    (hlook : ∀ t ∈ tokensOf cells, look' t = look t) : Linked look' before cells after := by
  induction cells generalizing before with
  | nil => trivial
  | cons cell rest ih =>
    obtain ⟨hcell, hrest⟩ := h
    refine ⟨?_, ih hrest fun t ht => hlook t (List.mem_cons_of_mem _ ht)⟩
    rw [hlook cell.1 List.mem_cons_self, hcell]

/-- Redirecting the last cell of a run moves the run to another token behind it. -/
theorem Linked.redirect_after {look look' : Token → Option (Cell α)}
    {before after after' : Option Token} {cells : List (Token × α)}
    (h : Linked look before cells after) (hnodup : (tokensOf cells).Nodup)
    (hlook : ∀ t ∈ tokensOf cells, look' t =
      if lastToken cells = some t then (look t).map fun cell => { cell with next := after' }
      else look t) :
    Linked look' before cells after' := by
  rcases List.eq_nil_or_concat' cells with rfl | ⟨front, ⟨t, x⟩, rfl⟩
  · trivial
  · obtain ⟨hfront, hlast⟩ := (linked_append front _).1 h
    rw [tokensOf_append] at hnodup hlook
    have hother : ∀ s ∈ tokensOf front, s ≠ t := fun s hs =>
      (List.nodup_append.1 hnodup).2.2 s hs t (by simp)
    refine (linked_append front _).2 ⟨hfront.congr fun s hs => ?_, ?_, trivial⟩
    · rw [hlook s (List.mem_append_left _ hs), lastToken_concat, if_neg]
      exact fun e => hother s hs (Option.some.inj e).symm
    · rw [hlook t (by simp), lastToken_concat, if_pos rfl, hlast.1]
      rfl

/-- Redirecting the first cell of a run moves the run to another token in front of it. -/
theorem Linked.redirect_before {look look' : Token → Option (Cell α)}
    {before before' after : Option Token} {cells : List (Token × α)}
    (h : Linked look before cells after) (hnodup : (tokensOf cells).Nodup)
    (hlook : ∀ t ∈ tokensOf cells, look' t =
      if firstToken cells = some t then (look t).map fun cell => { cell with prev := before' }
      else look t) :
    Linked look' before' cells after := by
  cases cells with
  | nil => trivial
  | cons cell rest =>
    obtain ⟨t, x⟩ := cell
    obtain ⟨hfirst, hrest⟩ := h
    have hother : t ∉ tokensOf rest := (List.nodup_cons.1 hnodup).1
    refine ⟨?_, hrest.congr fun s hs => ?_⟩
    · rw [hlook t List.mem_cons_self, firstToken_cons, if_pos rfl, hfirst]
      rfl
    · rw [hlook s (List.mem_cons_of_mem _ hs), firstToken_cons, if_neg]
      intro e
      cases e
      exact hother hs

end SlotChain

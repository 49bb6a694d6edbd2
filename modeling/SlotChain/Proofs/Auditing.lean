import SlotChain.Chain.Audit
import SlotChain.Proofs.Threads
import Mathlib.Data.List.Induction

/-!
# The audit accepts well-formed chains

Both walks of the audit meet exactly the cells of the run, in the one order and in the other, and end at
the opposite end of the chain. So an audit of a well-formed chain never fails.
-/

namespace SlotChain.Chain

variable {α : Type} {A : Type → Type} [SlotMap A]

/-- The walk along `next` meets a whole run, however much of its budget is left over. -/
theorem trail_forward {c : Chain α A} {cells : List (Token × α)} {before : Option Token}
    (h : Linked (cellAt c.arena) before cells none) (spare : Nat) :
    c.trail Cell.next Cell.prev (cells.length + spare) before (firstToken cells) =
      some ((lastToken cells).or before, cells.length) := by
  induction cells generalizing before with
  | nil =>
    simp only [trail, firstToken_nil, lastToken_nil, Option.none_or, List.length_nil]
  | cons cell rest ih =>
    obtain ⟨t, x⟩ := cell
    obtain ⟨hcell, hrest⟩ := h
    rw [cellAt, Option.or_none] at hcell
    simp only [List.length_cons, Nat.add_right_comm _ 1 spare, firstToken_cons, trail, hcell,
      if_true, ih hrest, Option.map_some, lastToken_cons, Option.or_assoc, Option.some_or]

/-- The walk along `prev` meets a whole run, however much of its budget is left over. -/
theorem trail_backward {c : Chain α A} {cells : List (Token × α)} {after : Option Token}
    (h : Linked (cellAt c.arena) none cells after) (spare : Nat) :
    c.trail Cell.prev Cell.next (cells.length + spare) after (lastToken cells) =
      some ((firstToken cells).or after, cells.length) := by
  induction cells using List.reverseRecOn generalizing after with
  | nil =>
    simp only [trail, firstToken_nil, lastToken_nil, Option.none_or, List.length_nil]
  | append_singleton front cell ih =>
    obtain ⟨t, x⟩ := cell
    obtain ⟨hfront, hcell, -⟩ := (linked_append front _).1 h
    rw [cellAt, Option.or_none, firstToken_nil, Option.none_or] at hcell
    rw [firstToken_cons, Option.some_or] at hfront
    simp only [List.length_append, List.length_cons, List.length_nil, Nat.zero_add,
      Nat.add_right_comm _ 1 spare, lastToken_concat, trail, hcell, if_true, ih hfront,
      Option.map_some, firstToken_append, firstToken_cons, Option.or_assoc, Option.some_or]

/-- Nothing is linked in front of the head. -/
theorem Threads.openEnd_head {c : Chain α A} {cells : List (Token × α)} (h : c.Threads cells) :
    c.openEnd Cell.prev c.head = true := by
  rw [h.head]
  cases cells with
  | nil => rfl
  | cons cell rest =>
    have hcell := h.linked.1
    rw [cellAt] at hcell
    simp only [firstToken_cons, openEnd, hcell, Option.map_some, Option.isNone_none,
      Option.getD_some]

/-- Nothing is linked behind the tail. -/
theorem Threads.openEnd_tail {c : Chain α A} {cells : List (Token × α)} (h : c.Threads cells) :
    c.openEnd Cell.next c.tail = true := by
  rw [h.tail]
  rcases List.eq_nil_or_concat' cells with rfl | ⟨front, cell, rfl⟩
  · rfl
  · have hcell := h.linked.middle
    rw [cellAt] at hcell
    simp only [lastToken_concat, openEnd, hcell, firstToken_nil, Option.or_none, Option.map_some,
      Option.isNone_none, Option.getD_some]

/-- Both ends of a run are absent together, and then the run is empty. -/
theorem isNone_ends (cells : List (Token × α)) :
    (firstToken cells).isNone = (cells.length == 0) ∧
      (lastToken cells).isNone = (cells.length == 0) := by
  cases cells with
  | nil => exact ⟨rfl, rfl⟩
  | cons cell rest =>
    rw [lastToken_cons]
    cases lastToken rest <;> exact ⟨rfl, rfl⟩

/-- Both ends of a run of one cell are that cell. -/
theorem ends_of_length_one {cells : List (Token × α)} (h : cells.length = 1) :
    firstToken cells = lastToken cells := by
  obtain ⟨cell, rfl⟩ := List.length_eq_one_iff.1 h
  rfl

/-- A well-formed chain passes the audit. -/
theorem Threads.sound {c : Chain α A} {cells : List (Token × α)} (h : c.Threads cells) :
    c.sound = true := by
  have hforward := trail_forward h.linked 0
  have hbackward := trail_backward h.linked 0
  rw [Nat.add_zero, Option.or_none] at hforward hbackward
  have hsingle : (cells.length != 1 || firstToken cells == lastToken cells) = true := by
    by_cases hone : cells.length = 1
    · simp only [ends_of_length_one hone, beq_self_eq_true, Bool.or_true]
    · simp only [bne_iff_ne.2 hone, Bool.true_or]
  have hhead := h.openEnd_head
  have htail := h.openEnd_tail
  rw [h.head] at hhead
  rw [h.tail] at htail
  simp only [Chain.sound, h.head, h.tail, h.len, h.size_eq, hforward, hbackward, hhead, htail,
    hsingle, (isNone_ends cells).1, (isNone_ends cells).2, beq_self_eq_true, Bool.and_self]

/-- The audit of a well-formed chain never fails. -/
theorem Threads.audit {c : Chain α A} {cells : List (Token × α)} (h : c.Threads cells) :
    c.audit = .ok () := if_pos h.sound

end SlotChain.Chain

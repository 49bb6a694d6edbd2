import SlotChain.Chain.Bulk
import SlotChain.Proofs.Mutations

/-!
# Items on their way between two chains

Absorbing a chain takes it apart item by item while another grows. To follow both, the two chains are put
side by side, and one item after another is moved from the head of the one to the tail of the other. After
each move both chains are well formed, and no item is lost or held twice.
-/

namespace SlotChain

variable {α : Type} {A : Type → Type} [SlotMap A] {β : Type}

/-- Two chains side by side. -/
structure Transfer (α : Type) (A : Type → Type := Arena) where
  /-- The chain that the items leave. -/
  source : Chain α A
  /-- The chain that they arrive at. -/
  target : Chain α A

/-- The events of the first moves, `k` of them, from a chain of length `m` to one of length `n`. -/
def firstMoves (n m k : Nat) : List Event :=
  (List.range k).flatMap fun i => [.mutated .deleteHead (m - (i + 1)), .mutated .append (n + i + 1)]

theorem firstMoves_succ (n m k : Nat) :
    firstMoves n (m + 1) (k + 1) =
      .mutated .deleteHead m :: .mutated .append (n + 1) :: firstMoves (n + 1) m k := by
  have hrest : ∀ i, n + (i + 1) + 1 = n + 1 + i + 1 := fun i => by omega
  simp only [firstMoves, List.range_succ_eq_map, List.flatMap_cons, List.flatMap_map, Nat.add_zero,
    Nat.add_sub_add_right, List.cons_append, List.nil_append, Nat.sub_zero, hrest]

namespace Transfer

/-- Move the first item of the source to the end of the target, and tell whether there was one. -/
def moveOne : Act (Transfer α A) Bool := fun t => do
  let taken ← Chain.deleteHead t.source
  match taken.answer with
  | none => return ⟨false, ⟨taken.state, t.target⟩, taken.events⟩
  | some x =>
    let added ← Chain.append x t.target
    return ⟨true, ⟨taken.state, added.state⟩, taken.events ++ added.events⟩

/-- Move items while there are some, at most as many as the bound says. -/
def moveUpTo : Nat → Act (Transfer α A) Unit
  | 0 => return ()
  | n + 1 => do
    if ← moveOne then moveUpTo n else return ()

/-- The items that have not left yet, and those that are at the target. -/
def Holds (t : Transfer α A) (items : List α × List α) : Prop :=
  t.source.Holds items.1 ∧ t.target.Holds items.2

/-- An item that the source gives up is moved if the target takes it. -/
theorem moveOne_of_taken {t : Transfer α A} {x : α} {source : Chain α A} {es : List Event}
    (h : Chain.deleteHead t.source = .ok ⟨some x, source, es⟩) :
    moveOne t = (Chain.append x t.target).map fun added =>
      ⟨true, ⟨source, added.state⟩, es ++ added.events⟩ := by
  rw [moveOne, bind_of_eq_ok h]
  rfl

/-- Once an item has moved, the rest is moved. -/
theorem moveUpTo_of_moved {n : Nat} {t t' : Transfer α A} {es : List Event}
    (h : moveOne t = .ok ⟨true, t', es⟩) :
    moveUpTo (n + 1) t = (moveUpTo n t').map fun rest => { rest with events := es ++ rest.events } := by
  rw [moveUpTo]
  cases hrest : moveUpTo n t' with
  | error fault => exact Act.bind_error_right h hrest
  | ok rest => exact Act.bind_ok h hrest

/-- Absorbing is moving, with the source out of sight. -/
theorem absorbUpTo_eq (n : Nat) (source c : Chain α A) :
    Chain.absorbUpTo n source c =
      (moveUpTo n ⟨source, c⟩).map fun o => ⟨(), o.state.target, o.events⟩ := by
  induction n generalizing source c with
  | zero => rfl
  | succ n ih =>
    -- Both begin with a deletion, and what that answers decides how they go on.
    rw [Chain.absorbUpTo]
    cases hdelete : Chain.deleteHead source with
    | error fault =>
      have hone : moveOne ⟨source, c⟩ = .error fault := by
        rw [moveOne, hdelete]
        rfl
      rw [moveUpTo, Act.bind_error hone]
      rfl
    | ok taken =>
      obtain ⟨_ | x, source', es⟩ := taken
      · have hone : moveOne ⟨source, c⟩ = .ok ⟨false, ⟨source', c⟩, es⟩ := by
          rw [moveOne, hdelete]
          rfl
        rw [moveUpTo, Act.bind_ok hone rfl, List.append_nil]
        rfl
      · have hone := moveOne_of_taken (t := ⟨source, c⟩) hdelete
        rw [bind_of_eq_ok rfl]
        cases happend : Chain.append x c with
        | error fault =>
          rw [happend] at hone
          rw [moveUpTo, Act.bind_error hone]
          simp only [happend]
          rfl
        | ok added =>
          rw [happend] at hone
          rw [moveUpTo_of_moved hone]
          simp only
          rw [bind_of_eq_ok happend, ih]
          cases moveUpTo n ⟨source', added.state⟩ <;> rfl

/-- One move takes an item from the front of those that have not left to the end of those that are at the
target. -/
theorem moveOne_spec {t : Transfer α A} {y : α} {ys xs : List α} (h : t.Holds (y :: ys, xs)) :
    Matches (xs.length < SlotMap.room A) Holds (moveOne t)
      ⟨true, (ys, xs ++ [y]), [.mutated .deleteHead ys.length, .mutated .append (xs.length + 1)]⟩ := by
  obtain ⟨hsource, htarget⟩ := h
  obtain ⟨source', htaken, hleft⟩ := hsource.deleteHead_cons
  have hadd := htarget.append y
  rw [moveOne_of_taken htaken]
  generalize Chain.append y t.target = added at hadd ⊢
  cases hadd with
  | refused hfull => exact .refused hfull
  | done hnew => exact .done ⟨hleft, hnew⟩

/-- Some moves leave all but the first items at the source, and these behind the items of the target. -/
theorem moveUpTo_spec {t : Transfer α A} {ys xs : List α} {k : Nat} (h : t.Holds (ys, xs))
    (hk : k ≤ ys.length) :
    Matches (xs.length + k ≤ SlotMap.room A) Holds (moveUpTo k t)
      ⟨(), (ys.drop k, xs ++ ys.take k), firstMoves xs.length ys.length k⟩ := by
  induction k generalizing t ys xs with
  | zero =>
    rw [List.take_zero, List.append_nil]
    exact .done h
  | succ k ih =>
    cases ys with
    | nil => cases hk
    | cons y ys =>
      have hfirst : Matches (xs.length + (k + 1) ≤ SlotMap.room A) Holds (moveOne t)
          ⟨true, (ys, xs ++ [y]), [.mutated .deleteHead ys.length,
            .mutated .append (xs.length + 1)]⟩ :=
        (moveOne_spec h).weaken fun hle => by omega
      rw [List.length_cons, firstMoves_succ, moveUpTo]
      refine hfirst.bind fun t' ht' => ?_
      have hrest := ih ht' (Nat.le_of_succ_le_succ hk)
      rw [List.append_assoc, List.length_append, List.length_singleton] at hrest
      exact hrest.weaken fun hle => by omega

end Transfer

end SlotChain

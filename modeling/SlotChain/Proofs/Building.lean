import SlotChain.Chain.Bulk
import SlotChain.Proofs.Cursors
import SlotChain.Proofs.Transfers

/-!
# Building, copying and joining chains

Chains are built and joined one item after another, and every chain on the way is well formed. Nothing is
refused unless the result would not fit into an arena.
-/

namespace SlotChain.Chain

variable {α : Type} {A : Type → Type} [SlotMap A]

/-- The events of appending so many items to a chain of this length. -/
def appendEvents (n k : Nat) : List Event :=
  (List.range k).map fun i => .mutated .append (n + i + 1)

/-- The events of moving all of so many items to the end of a chain of this length. -/
def moveEvents (n m : Nat) : List Event := firstMoves n m m

theorem appendEvents_succ (n k : Nat) :
    appendEvents n (k + 1) = .mutated .append (n + 1) :: appendEvents (n + 1) k := by
  simp only [appendEvents, List.range_succ_eq_map, List.map_cons, List.map_map, Nat.add_zero,
    List.cons.injEq, true_and]
  refine List.map_congr_left fun i _ => ?_
  simp only [Function.comp_apply, Event.mutated.injEq, true_and]
  omega

/-- A chain with room reserved is empty, unless the room exceeds that of an arena. -/
theorem withCapacity_spec (n : Nat) :
    (withCapacity n = .ok (empty : Chain α A) ∧ n ≤ SlotMap.room A) ∨
      ((withCapacity n : Except Fault (Chain α A)) = .error .capacityOverflow ∧
        ¬n ≤ SlotMap.room A) := by
  by_cases h : n ≤ SlotMap.room A
  · exact .inl ⟨if_pos h, h⟩
  · exact .inr ⟨if_neg h, h⟩

/-- Extending a chain appends the items in order. -/
theorem Holds.extend {c : Chain α A} {xs : List α} (h : c.Holds xs) (ys : List α) :
    Matches (xs.length + ys.length ≤ SlotMap.room A) Holds (Chain.extend ys c)
      ⟨(), xs ++ ys, appendEvents xs.length ys.length⟩ := by
  induction ys generalizing c xs with
  | nil =>
    rw [List.append_nil]
    exact .done h
  | cons y ys ih =>
    have hfirst : Matches (xs.length + (y :: ys).length ≤ SlotMap.room A) Holds (Chain.append y c)
        ⟨(), xs ++ [y], [.mutated .append (xs.length + 1)]⟩ := by
      refine (h.append y).weaken fun hle => ?_
      rw [List.length_cons] at hle
      omega
    rw [Chain.extend, List.length_cons, appendEvents_succ]
    refine hfirst.bind fun c' hc' => ?_
    have hrest := ih hc'
    rw [List.append_assoc, List.length_append, List.length_singleton] at hrest
    refine hrest.weaken fun hle => ?_
    rw [List.length_cons] at hle
    omega

/-- What starts with room reserved for all items starts with an empty chain. -/
theorem matches_withCapacity {β : Type} {n : Nat}
    {f : Chain α A → Except Fault (Outcome (Chain α A) β)} {o : Outcome (List α) β}
    (h : Matches (n ≤ SlotMap.room A) Holds (f empty) o) :
    Matches (n ≤ SlotMap.room A) Holds (withCapacity n >>= f) o := by
  rcases withCapacity_spec (α := α) (A := A) n with ⟨hbuild, -⟩ | ⟨hbuild, hfull⟩
  · rwa [bind_of_eq_ok hbuild]
  · rw [hbuild]
    exact .refused hfull

/-- A chain built from items holds them. -/
theorem ofList_spec (items : List α) :
    Matches (items.length ≤ SlotMap.room A) Holds
      (ofList items : Except Fault (Outcome (Chain α A) Unit))
      ⟨(), items, appendEvents 0 items.length⟩ := by
  have hall := holds_empty.extend (A := A) items
  rw [List.length_nil, Nat.zero_add, List.nil_append] at hall
  exact matches_withCapacity hall

/-- A copy holds the same items. -/
theorem Holds.copy {c : Chain α A} {xs : List α} (h : c.Holds xs) :
    Matches (xs.length ≤ SlotMap.room A) Holds c.copy ⟨(), xs, appendEvents 0 xs.length⟩ := by
  rw [Chain.copy, h.items_eq]
  exact ofList_spec xs

/-- Comparing two chains compares their items. -/
theorem Holds.equals_eq [BEq α] {c d : Chain α A} {xs ys : List α} (hc : c.Holds xs)
    (hd : d.Holds ys) : c.equals d = .ok (xs == ys) := by
  rw [equals, hc.items_eq, hd.items_eq, hc.len_eq, hd.len_eq]
  split
  · rfl
  · rename_i hlen
    have hne : (xs == ys) = false := by
      rw [Bool.eq_false_iff]
      intro heq
      exact hlen (beq_iff_eq.2 (List.length_eq_of_beq heq))
    rw [hne]

/-- Chains with the same items are equal. -/
theorem Holds.equals_same [BEq α] [ReflBEq α] {c d : Chain α A} {xs : List α} (hc : c.Holds xs)
    (hd : d.Holds xs) : c.equals d = .ok true := by
  rw [hc.equals_eq hd, BEq.rfl]

/-- Absorbing a chain moves its items to the end in order. -/
theorem Holds.absorb {c source : Chain α A} {xs ys : List α} (h : c.Holds xs)
    (hsource : source.Holds ys) :
    Matches (xs.length + ys.length ≤ SlotMap.room A) Holds (Chain.absorb source c)
      ⟨(), xs ++ ys, moveEvents xs.length ys.length⟩ := by
  have hmoves := Transfer.moveUpTo_spec (t := ⟨source, c⟩) ⟨hsource, h⟩ (Nat.le_refl ys.length)
  rw [List.take_length] at hmoves
  rw [Chain.absorb, hsource.len_eq, Transfer.absorbUpTo_eq]
  generalize Transfer.moveUpTo ys.length ⟨source, c⟩ = moved at hmoves ⊢
  cases hmoves with
  | done hall => exact .done hall.2
  | refused hfull => exact .refused hfull

/-- An empty chain absorbs all items of another. -/
theorem Holds.absorb_empty {c : Chain α A} {xs : List α} (h : c.Holds xs) :
    Matches (xs.length ≤ SlotMap.room A) Holds (Chain.absorb c empty)
      ⟨(), xs, moveEvents 0 xs.length⟩ := by
  have hall := (holds_empty (A := A)).absorb h
  rwa [List.length_nil, Nat.zero_add, List.nil_append] at hall

/-- A chain gathered from another holds its items. -/
theorem Holds.gather {c : Chain α A} {xs : List α} (h : c.Holds xs) :
    Matches (xs.length ≤ SlotMap.room A) Holds c.gather ⟨(), xs, moveEvents 0 xs.length⟩ := by
  rw [Chain.gather, h.len_eq]
  exact matches_withCapacity h.absorb_empty

end SlotChain.Chain

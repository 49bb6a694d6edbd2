import SlotChain.Proofs.Refinement

/-!
# What fits into an arena

An operation may be refused for want of room. Where a slot map never holds more entries than it has room
for, that is all there is to refusals: a step is completed exactly if what it asks for fits. Whether it
does depends on the items of the chain alone, and not on the slots in which its cells lie.
-/

namespace SlotChain

/-- A kind of slot maps that never hold more entries than they have room for. -/
class BoundedSlotMap (A : Type → Type) [SlotMap A] : Prop where
  /-- The entries fit into the room. -/
  size_le {α : Type} (a : A α) : SlotMap.size a ≤ SlotMap.room A

instance : BoundedSlotMap Arena where
  size_le a := Nat.le_trans (Array.countP_le_size ..) a.size_le

variable {α : Type} {A : Type → Type} [SlotMap A] [BoundedSlotMap A]

namespace Chain

/-- The items of a well-formed chain fit into an arena. -/
theorem Holds.length_le_room {c : Chain α A} {xs : List α} (h : c.Holds xs) :
    xs.length ≤ SlotMap.room A := by
  obtain ⟨cells, hcells, rfl⟩ := h
  rw [List.length_map, ← hcells.size_eq]
  exact BoundedSlotMap.size_le c.arena

end Chain

/-- What would leave more items than there is room for is refused. -/
theorem Matches.eq_error {β : Type} {fits : Prop} {r : Except Fault (Outcome (Chain α A) β)}
    {o : Outcome (List α) β} (h : Matches fits Chain.Holds r o)
    (hroom : SlotMap.room A < o.state.length) : r = .error .capacityOverflow := by
  cases h with
  | done h => exact absurd h.length_le_room (Nat.not_le_of_lt hroom)
  | refused => rfl

namespace ListStep

variable [Item α]

/-- A step that is completed has the room that it asks for. -/
theorem demand_le_of_ok {c : Chain α A} {xs : List α} {step : ListStep α}
    {o : Outcome (Chain α A) (Answer α)} (h : c.Holds xs) (hstep : step.perform c = .ok o) :
    step.demand xs ≤ SlotMap.room A := by
  have hleft := ((step.perform_spec h).of_ok hstep).2.2.length_le_room
  cases step with
  | build capacity =>
    rcases Chain.withCapacity_spec (α := α) (A := A) capacity with ⟨-, hle⟩ | ⟨hbuild, -⟩
    · exact hle
    · rw [perform, hbuild] at hstep
      cases hstep
  | collect items => exact hleft
  | prepend item => exact hleft
  | append item => rwa [plain, List.length_append] at hleft
  | extend items => rwa [plain, List.length_append] at hleft
  | _ => exact Nat.zero_le _

/-- A step that asks for more room than there is is refused. -/
theorem perform_eq_error {c : Chain α A} {xs : List α} {step : ListStep α} (h : c.Holds xs)
    (hroom : ¬step.demand xs ≤ SlotMap.room A) : step.perform c = .error .capacityOverflow := by
  have hstep := step.perform_spec h
  generalize hr : step.perform c = r, step.plain xs = o at hstep
  cases hstep with
  | done => exact absurd (demand_le_of_ok h hr) hroom
  | refused => rfl

end ListStep

end SlotChain

import SlotChain.Proofs.Refinement

/-!
# Courses of steps as sections

A course of steps on a chain is carried out up to the first step that there is no room for. What has been
carried out until then stays, and a plain sequence knows it in full: the items afterwards, the answers,
and what became of every item that was put in. Nothing is lost and nothing is handed out twice, unless a
step gives the whole list up; and a list that is only added to at the tail and only taken from at the head
hands its items out in the order in which they came.
-/

namespace SlotChain.ListStep

variable {α : Type} {A : Type → Type} [SlotMap A] [Item α]

/-! ### How far a course gets -/

/-- How much of a course of steps on a sequence is carried out, and what it results in: all of it, with
the answers, or the part before a step that asks for more room than there is. -/
inductive CarriedOut (room : Nat) (xs : List α) :
    List (ListStep α) → List (ListStep α) → Except Fault (List (Answer α)) → Prop
  /-- Every step is answered. -/
  | whole (steps : List (ListStep α)) : CarriedOut room xs steps steps (.ok (plainAll xs steps).2)
  /-- A step finds no room. -/
  | part (done : List (ListStep α)) (step : ListStep α) (rest : List (ListStep α))
    (hfull : room < step.demand (plainAll xs done).1) :
    CarriedOut room xs (done ++ step :: rest) done (.error .capacityOverflow)

/-- A step that is carried out leaves the rest of its course to be carried out. -/
theorem CarriedOut.cons {room : Nat} {xs : List α} {step : ListStep α}
    {steps done : List (ListStep α)} {result : Except Fault (List (Answer α))}
    (h : CarriedOut room (step.plain xs).state steps done result) :
    CarriedOut room xs (step :: steps) (step :: done)
      (result.map ((step.plain xs).answer :: ·)) := by
  cases h with
  | whole => exact .whole (step :: steps)
  | part _ last rest hfull => exact .part (step :: done) last rest hfull

/-- A chain carries out of a course of steps what the sequence of its items would, and holds the items
that this leads to. -/
theorem performAll_carriedOut {c : Chain α A} {xs : List α} (h : c.Holds xs)
    (steps : List (ListStep α)) :
    ∃ done, CarriedOut (SlotMap.room A) xs steps done (performAll steps c).2 ∧
      (performAll steps c).1.Holds (plainAll xs done).1 := by
  induction steps generalizing c xs with
  | nil => exact ⟨[], .whole [], h⟩
  | cons step rest ih =>
    rw [performAll]
    have hstep := perform_spec h step
    have hcons : ∀ {done result}, CarriedOut (SlotMap.room A) (step.plain xs).state rest done result →
        CarriedOut (SlotMap.room A) xs (step :: rest) (step :: done)
          (result.map ((step.plain xs).answer :: ·)) := CarriedOut.cons
    have hstate : ∀ done, (plainAll xs (step :: done)).1 = (plainAll (step.plain xs).state done).1 :=
      fun _ => rfl
    -- What remains is the same for every step, so the step is forgotten but for its outcome.
    generalize step.perform c = performed at hstep ⊢
    generalize step.plain xs = first at hstep hcons hstate
    cases hstep with
    | done hheld =>
      obtain ⟨done, hdone, hleft⟩ := ih hheld
      refine ⟨step :: done, hcons hdone, ?_⟩
      rw [hstate]
      exact hleft
    | refused hfull => exact ⟨[], .part [] step rest (Nat.lt_of_not_le hfull), h⟩

/-- A course in two parts leaves what the second leaves of what the first has left. -/
theorem plainAll_append (xs : List α) (before after : List (ListStep α)) :
    plainAll xs (before ++ after) =
      ((plainAll (plainAll xs before).1 after).1,
        (plainAll xs before).2 ++ (plainAll (plainAll xs before).1 after).2) := by
  induction before generalizing xs with
  | nil => rfl
  | cons step rest ih =>
    rw [List.cons_append, plainAll, plainAll, ih]
    rfl

/-- A course in two parts asks for what the first part asks for, and the second after it. -/
theorem demandAll_append (xs : List α) (before after : List (ListStep α)) :
    demandAll xs (before ++ after) =
      max (demandAll xs before) (demandAll (plainAll xs before).1 after) := by
  induction before generalizing xs with
  | nil => exact (Nat.zero_max _).symm
  | cons step rest ih =>
    rw [List.cons_append, demandAll, demandAll, ih, Nat.max_assoc]
    rfl

/-- A course that does not ask for too much room is carried out as a whole. -/
theorem CarriedOut.whole_of_room {room : Nat} {xs : List α} {steps done : List (ListStep α)}
    {result : Except Fault (List (Answer α))} (h : CarriedOut room xs steps done result)
    (hroom : demandAll xs steps ≤ room) : done = steps ∧ result = .ok (plainAll xs steps).2 := by
  cases h with
  | whole => exact ⟨rfl, rfl⟩
  | part _ step rest hfull =>
    rw [demandAll_append, demandAll] at hroom
    omega

/-! ### What becomes of the items -/

/-- The items that a step adds to a list, in the order in which it adds them. -/
def inserted : ListStep α → List α
  | prepend item => [item]
  | append item => [item]
  | extend items => items
  | _ => []

/-- The item that a deletion hands out with its answer, if there is one. -/
def delivered : ListStep α → Answer α → List α
  | deleteHead, .item x => x.toList
  | deleteTail, .item x => x.toList
  | _, _ => []

/-- The items that deletions hand out in a course of steps on a sequence. -/
def deliveredAll (xs : List α) (steps : List (ListStep α)) : List α :=
  (List.zipWith delivered steps (plainAll xs steps).2).flatten

/-- Whether a step only adds single items to a list, takes single items off it, or asks about it. Every
other step gives the list up as a whole. -/
def keeps : ListStep α → Bool
  | build _ => false
  | collect _ => false
  | clear => false
  | drain _ => false
  | _ => true

/-- Whether a step only adds items at the tail, takes them off the head, or asks about the list. -/
def queues : ListStep α → Bool
  | append _ => true
  | extend _ => true
  | deleteHead => true
  | ask _ => true
  | _ => false

theorem deliveredAll_cons (xs : List α) (step : ListStep α) (rest : List (ListStep α)) :
    deliveredAll xs (step :: rest) =
      step.delivered (step.plain xs).answer ++ deliveredAll (step.plain xs).state rest := rfl

/-- A step of a queue adds behind all items and hands out the one before all others. -/
theorem plain_queues (xs : List α) {step : ListStep α} (hqueues : step.queues) :
    xs ++ step.inserted = step.delivered (step.plain xs).answer ++ (step.plain xs).state := by
  cases step with
  | build capacity => cases hqueues
  | collect items => cases hqueues
  | prepend item => cases hqueues
  | append item => rfl
  | extend items => rfl
  | clear => cases hqueues
  | deleteHead =>
    refine (List.append_nil xs).trans ?_
    cases xs <;> rfl
  | deleteTail => cases hqueues
  | drain calls => cases hqueues
  | ask query => exact List.append_nil xs

/-- A queue hands its items out in order: first those at first, then those added. -/
theorem plainAll_queues (xs : List α) {steps : List (ListStep α)}
    (hqueues : ∀ step ∈ steps, step.queues) :
    xs ++ steps.flatMap inserted = deliveredAll xs steps ++ (plainAll xs steps).1 := by
  induction steps generalizing xs with
  | nil => exact List.append_nil xs
  | cons step rest ih =>
    have hstep := plain_queues xs (hqueues step List.mem_cons_self)
    have hrest := ih (step.plain xs).state fun s hs => hqueues s (List.mem_cons_of_mem step hs)
    rw [List.flatMap_cons, deliveredAll_cons, ← List.append_assoc, hstep, List.append_assoc, hrest,
      List.append_assoc]
    rfl

/-- What a step adds to a list is in it afterwards, and what was in it still is, but for what the step
hands out. -/
theorem plain_conserves (xs : List α) {step : ListStep α} (hkeeps : step.keeps) :
    (xs ++ step.inserted).Perm (step.delivered (step.plain xs).answer ++ (step.plain xs).state) := by
  cases step with
  | build capacity => cases hkeeps
  | collect items => cases hkeeps
  | prepend item => exact List.perm_append_singleton item xs
  | append item => exact .of_eq (plain_queues xs rfl)
  | extend items => exact .of_eq (plain_queues xs rfl)
  | clear => cases hkeeps
  | deleteHead => exact .of_eq (plain_queues xs rfl)
  | deleteTail =>
    refine (List.Perm.of_eq (List.append_nil xs)).trans ?_
    cases xs using List.reverseRecOn with
    | nil => exact .refl _
    | append_singleton rest x =>
      rw [plain, List.getLast?_concat, List.dropLast_concat]
      exact List.perm_append_singleton x rest
  | drain calls => cases hkeeps
  | ask query => exact .of_eq (plain_queues xs rfl)

/-- In a course of steps that never gives the list up, the items at first and those added are those that
deletions hand out and those left, each as often. -/
theorem plainAll_conserves (xs : List α) {steps : List (ListStep α)}
    (hkeeps : ∀ step ∈ steps, step.keeps) :
    (xs ++ steps.flatMap inserted).Perm (deliveredAll xs steps ++ (plainAll xs steps).1) := by
  induction steps generalizing xs with
  | nil => exact .of_eq (List.append_nil xs)
  | cons step rest ih =>
    have hstep := plain_conserves xs (hkeeps step List.mem_cons_self)
    have hrest := ih (step.plain xs).state fun s hs => hkeeps s (List.mem_cons_of_mem step hs)
    rw [List.flatMap_cons, deliveredAll_cons, ← List.append_assoc,
      List.append_assoc (step.delivered _)]
    refine (hstep.append_right _).trans ?_
    rw [List.append_assoc]
    exact hrest.append_left _

end SlotChain.ListStep

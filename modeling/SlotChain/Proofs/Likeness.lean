import SlotChain.Proofs.Reachable
import SlotChain.Proofs.Room

/-!
# Equal chains cannot be told apart

Two chains that came about in different ways may keep the same items in different slots, and have other
slots vacant. Nothing of that is ever seen. Whatever is done with both shows the same on both, and leaves
them equal again; and chains with different items are told apart at once, by asking for the items. So the
comparison of two chains decides whether anything can be observed that differs.
-/

namespace SlotChain

variable {α : Type} {A : Type → Type} [SlotMap A] {σ β : Type}

/-- Two results agree: both actions are completed with the same answer and the same events, and leave
related states, or the same fault stops both. -/
inductive Agree (related : σ → σ → Prop) :
    Except Fault (Outcome σ β) → Except Fault (Outcome σ β) → Prop
  /-- Both are completed. -/
  | completed {b : β} {s t : σ} {es : List Event} (h : related s t) :
    Agree related (.ok ⟨b, s, es⟩) (.ok ⟨b, t, es⟩)
  /-- Both are stopped. -/
  | stopped (fault : Fault) : Agree related (.error fault) (.error fault)

/-- A course of steps, seen from outside. -/
structure Course (α : Type) (A : Type → Type := Arena) where
  /-- The answer and the events of each step that was completed, and the fault of each that was stopped. -/
  seen : List (Except Fault (Answer α × List Event))
  /-- The chain that is left. -/
  left : Chain α A

/-- Follow a course of steps. One that is stopped by a fault leaves the chain as it was, and the next step
follows. -/
def ListStep.follow [Item α] : List (ListStep α) → Chain α A → Course α A
  | [], c => ⟨[], c⟩
  | step :: rest, c =>
    match step.perform c with
    | .error fault =>
      let others := follow rest c
      ⟨.error fault :: others.seen, others.left⟩
    | .ok o =>
      let others := follow rest o.state
      ⟨.ok (o.answer, o.events) :: others.seen, others.left⟩

namespace Chain

/-- Two chains hold the same items, in whatever slots. -/
def Alike (c d : Chain α A) : Prop := ∃ xs, c.Holds xs ∧ d.Holds xs

variable [Item α] {c d : Chain α A}

/-- Alike chains are equal. -/
theorem Alike.equals_eq [ReflBEq α] (h : c.Alike d) : c.equals d = .ok true := by
  obtain ⟨xs, hc, hd⟩ := h
  exact hc.equals_same hd

/-- A course within the room of an arena is completed. -/
theorem Holds.follow_completes {xs : List α} {steps : List (ListStep α)} (h : c.Holds xs)
    (hroom : ListStep.demandAll xs steps ≤ SlotMap.room A) :
    ∃ replies : List (Answer α × List Event), replies.length = steps.length ∧
      (ListStep.follow steps c).seen = replies.map Except.ok := by
  induction steps generalizing c xs with
  | nil => exact ⟨[], rfl, rfl⟩
  | cons step rest ih =>
    rw [ListStep.demandAll] at hroom
    obtain ⟨c', hstep, hc'⟩ := (step.perform_spec h).completes (by omega)
    obtain ⟨replies, hlength, hseen⟩ := ih hc' (by omega)
    refine ⟨((step.plain xs).answer, (step.plain xs).events) :: replies, ?_, ?_⟩
    · rw [List.length_cons, List.length_cons, hlength]
    · rw [ListStep.follow, hstep, List.map_cons, ← hseen]

/-- Asking for the items shows them. -/
theorem Holds.seen_items {xs : List α} (h : c.Holds xs) :
    (ListStep.follow [.ask .items] c).seen = [.ok (.items xs, [])] := by
  rw [ListStep.follow, ListStep.perform, Act.inspect, h.answer_eq]
  rfl

/-- What it means for two chains that their comparison comes to a verdict. -/
structure Compares (c d : Chain α A) (xs ys : List α) (verdict : Bool) : Prop where
  /-- These are the items of the first chain. -/
  items : c.items = .ok xs
  /-- These are the items of the second. -/
  otherItems : d.items = .ok ys
  /-- This is the verdict. -/
  equals : c.equals d = .ok verdict
  /-- The chains are equal exactly if they have the same items from head to tail. -/
  items_iff : verdict = true ↔ xs = ys
  /-- They are equal exactly if every course of steps shows the same on both. -/
  seen_iff : verdict = true ↔
    ∀ steps, (ListStep.follow steps c).seen = (ListStep.follow steps d).seen
  /-- Equal chains are equal again wherever a course of steps has led them, so after each of its steps. -/
  equals_left : verdict = true →
    ∀ steps, (ListStep.follow steps c).left.equals (ListStep.follow steps d).left = .ok true
  /-- Every step of a course within the room of an arena is completed. -/
  completes : ∀ steps, ListStep.demandAll xs steps ≤ SlotMap.room A →
    ∃ replies : List (Answer α × List Event), replies.length = steps.length ∧
      (ListStep.follow steps c).seen = replies.map Except.ok

variable [BoundedSlotMap A]

/-- Alike chains take a step alike: both complete it, or neither has the room. -/
theorem Alike.perform (h : c.Alike d) (step : ListStep α) :
    Agree Alike (step.perform c) (step.perform d) := by
  obtain ⟨xs, hc, hd⟩ := h
  -- The step asks both for the same room, because that depends on the items alone.
  by_cases hroom : step.demand xs ≤ SlotMap.room A
  · obtain ⟨c', hokc, hc'⟩ := (step.perform_spec hc).completes hroom
    obtain ⟨d', hokd, hd'⟩ := (step.perform_spec hd).completes hroom
    rw [hokc, hokd]
    exact .completed ⟨_, hc', hd'⟩
  · rw [ListStep.perform_eq_error hc hroom, ListStep.perform_eq_error hd hroom]
    exact .stopped _

/-- Alike chains show the same all along a course of steps, and are left alike. -/
theorem Alike.follow (h : c.Alike d) (steps : List (ListStep α)) :
    (ListStep.follow steps c).seen = (ListStep.follow steps d).seen ∧
      (ListStep.follow steps c).left.Alike (ListStep.follow steps d).left := by
  induction steps generalizing c d with
  | nil => exact ⟨rfl, h⟩
  | cons step rest ih =>
    have hstep := h.perform step
    rw [ListStep.follow, ListStep.follow]
    generalize step.perform c = r, step.perform d = r' at hstep
    cases hstep with
    | completed halike =>
      obtain ⟨hseen, hleft⟩ := ih halike
      refine ⟨?_, hleft⟩
      simp only [hseen]
    | stopped fault =>
      obtain ⟨hseen, hleft⟩ := ih h
      refine ⟨?_, hleft⟩
      simp only [hseen]

/-- Two reachable chains, whatever the histories that led to them, are equal exactly if they have the
same items, and exactly if nothing that is done to both can tell them apart. -/
theorem Reachable.equals_exact [LawfulBEq α] (hc : c.Reachable) (hd : d.Reachable) :
    ∃ xs ys verdict, c.Compares d xs ys verdict := by
  obtain ⟨xs, hxs⟩ := hc.holds
  obtain ⟨ys, hys⟩ := hd.holds
  have hverdict : (xs == ys) = true ↔ xs = ys := beq_iff_eq
  have halike : (xs == ys) = true → c.Alike d := fun heq =>
    ⟨xs, hxs, by rwa [hverdict.1 heq]⟩
  refine ⟨xs, ys, xs == ys, ?_⟩
  exact
    { items := hxs.items_eq
      otherItems := hys.items_eq
      equals := hxs.equals_eq hys
      items_iff := hverdict
      seen_iff := by
        constructor
        · intro heq steps
          exact ((halike heq).follow steps).1
        · intro hseen
          -- One question is enough to tell chains with different items apart.
          have hitems := hseen [.ask .items]
          rw [hxs.seen_items, hys.seen_items] at hitems
          cases hitems
          exact beq_self_eq_true xs
      equals_left := fun heq steps => ((halike heq).follow steps).2.equals_eq
      completes := fun steps hroom => hxs.follow_completes hroom }

/-- The same two numbers, first in slots of which one was used before, and then in new ones. -/
theorem Reachable.equals_exact_numbers :
    ∃ c d : Chain Int,
      ListStep.performAll [.append 5, .append 2, .deleteHead, .append 3] .empty =
        (c, .ok [.done, .done, .item (some 5), .done]) ∧
      ListStep.performAll [.build 16, .extend [2, 3]] .empty = (d, .ok [.done, .done]) ∧
      c.Reachable ∧ d.Reachable ∧ c.head ≠ d.head ∧
      c.Compares d [2, 3] [2, 3] true := by
  obtain ⟨c, hrun, hreach, hc⟩ :=
    of_steps (A := Arena) [.append 5, .append 2, .deleteHead, .append (3 : Int)] (by decide)
  obtain ⟨d, hrun', hreach', hd⟩ := of_steps (A := Arena) [.build 16, .extend [2, (3 : Int)]] (by decide)
  obtain ⟨xs, ys, verdict, hcompares⟩ := equals_exact hreach hreach'
  have hxs : xs = [2, 3] := hc.eq_of_items hcompares.items
  have hys : ys = [2, 3] := hd.eq_of_items hcompares.otherItems
  subst hxs hys
  obtain rfl := hcompares.items_iff.2 rfl
  refine ⟨c, d, hrun, hrun', hreach, hreach', ?_, hcompares⟩
  have hhead := congrArg (fun r => r.1.head) hrun
  have hhead' := congrArg (fun r => r.1.head) hrun'
  rw [← hhead, ← hhead']
  decide +kernel

end Chain

end SlotChain

import SlotChain.Handles
import SlotChain.ListStep
import SlotChain.Proofs.Building
import SlotChain.Proofs.Draining
import SlotChain.Proofs.Readers

/-!
# Steps on a plain sequence

Every step and every question has a meaning on a plain sequence, which knows nothing of cells, slots and
links. A chain that holds the items of a sequence takes each step as the sequence does, and holds the
items of the new sequence afterwards. The one thing that a sequence does not know is how much room there
is, so a step also tells how many entries it asks for.
-/

namespace SlotChain

variable {α : Type} {A : Type → Type} [SlotMap A] [Item α]

/-- The answer to a question about a plain sequence. -/
def Query.plain (xs : List α) : Query → Answer α
  | .front => .item xs.head?
  | .back => .item xs.getLast?
  | .len => .number xs.length
  | .isEmpty => .flag xs.isEmpty
  | .display => .text (Display.render (xs.map Item.text))
  | .displaysNull => .flag (Display.render (xs.map Item.text) == Display.null)
  | .inspect => .text (Text.Shape.list (xs.map Item.shape)).compact
  | .inspectPretty => .text (Text.Shape.list (xs.map Item.shape)).pretty
  | .items => .items xs
  | .itemsReversed => .items xs.reverse
  | .cursors requests => .replies (Reader.serveAll xs #[Reader.start xs] requests).answer

/-- A chain answers every question as the sequence of its items does. -/
theorem Chain.Holds.answer_eq {c : Chain α A} {xs : List α} (h : c.Holds xs) (q : Query) :
    c.answer q = .ok (q.plain xs) := by
  cases q with
  | front => rw [answer, h.front_eq]; rfl
  | back => rw [answer, h.back_eq]; rfl
  | len => rw [answer, h.len_eq]; rfl
  | isEmpty => rw [answer, h.isEmpty_eq]; rfl
  | display => rw [answer, display, h.items_eq]; rfl
  | displaysNull => rw [answer, display, h.items_eq]; rfl
  | inspect => rw [answer, shape, h.items_eq]; rfl
  | inspectPretty => rw [answer, shape, h.items_eq]; rfl
  | items => rw [answer, h.items_eq]; rfl
  | itemsReversed => rw [answer, h.itemsReversed_eq]; rfl
  | cursors requests =>
    obtain ⟨ks, hserve, -⟩ :=
      (CursorRequest.serveAll_spec h (Reader.tracks_start h) requests).completes trivial
    rw [answer, hserve]
    rfl

namespace ListStep

/-- What a step does to a plain sequence. -/
def plain (xs : List α) : ListStep α → Outcome (List α) (Answer α)
  | build _ => ⟨.done, [], []⟩
  | collect items => ⟨.done, items, Chain.appendEvents 0 items.length⟩
  | prepend item => ⟨.done, item :: xs, [.mutated .prepend (xs.length + 1)]⟩
  | append item => ⟨.done, xs ++ [item], [.mutated .append (xs.length + 1)]⟩
  | extend items => ⟨.done, xs ++ items, Chain.appendEvents xs.length items.length⟩
  | clear => ⟨.done, [], []⟩
  | deleteHead => ⟨.item xs.head?, xs.tail, Chain.deletionEvents .deleteHead xs.length⟩
  | deleteTail => ⟨.item xs.getLast?, xs.dropLast, Chain.deletionEvents .deleteTail xs.length⟩
  | drain calls =>
    ⟨.replies (Call.replies xs calls), [],
      Call.eventsAll (Chain.deletion .deleteHead) (Chain.deletion .deleteTail) xs calls⟩
  | ask query => ⟨query.plain xs, xs, []⟩

/-- How many entries a step asks an arena to hold. -/
def demand (xs : List α) : ListStep α → Nat
  | build capacity => capacity
  | collect items => items.length
  | prepend _ => xs.length + 1
  | append _ => xs.length + 1
  | extend items => xs.length + items.length
  | _ => 0

/-- A chain takes every step as the sequence of its items does, unless there is no room. -/
theorem perform_spec {c : Chain α A} {xs : List α} (h : c.Holds xs) (step : ListStep α) :
    Matches (step.demand xs ≤ SlotMap.room A) Chain.Holds (step.perform c) (step.plain xs) := by
  cases step with
  | build capacity =>
    rcases Chain.withCapacity_spec (α := α) (A := A) capacity with ⟨hbuild, -⟩ | ⟨hbuild, hfull⟩
    · rw [perform, hbuild]
      exact .done Chain.holds_empty
    · rw [perform, hbuild]
      exact .refused hfull
  | collect items => exact (Chain.ofList_spec (A := A) items).map fun _ => Answer.done
  | prepend item => exact (h.prepend item).andAnswer fun _ => Answer.done
  | append item => exact (h.append item).andAnswer fun _ => Answer.done
  | extend items => exact (h.extend items).andAnswer fun _ => Answer.done
  | clear => exact .done (Chain.holds_clear c)
  | deleteHead => exact (h.deleteHead.weaken fun _ => trivial).andAnswer Answer.item
  | deleteTail => exact (h.deleteTail.weaken fun _ => trivial).andAnswer Answer.item
  | drain calls =>
    obtain ⟨c', hcalls, -⟩ := (Chain.drain_follows.calls_spec h calls).completes trivial
    simp only [perform, hcalls]
    exact .done Chain.holds_empty
  | ask query =>
    rw [perform, Act.inspect, h.answer_eq]
    exact .done h

/-- What steps one after the other do to a plain sequence: the sequence afterwards and the answers. -/
def plainAll (xs : List α) : List (ListStep α) → List α × List (Answer α)
  | [] => (xs, [])
  | step :: rest =>
    let first := step.plain xs
    let others := plainAll first.state rest
    (others.1, first.answer :: others.2)

/-- How many entries steps one after the other ask an arena to hold at once. -/
def demandAll (xs : List α) : List (ListStep α) → Nat
  | [] => 0
  | step :: rest => max (step.demand xs) (demandAll (step.plain xs).state rest)

/-- The beginning of a course of steps asks for no more than the whole. -/
theorem demandAll_mono {before all : List (ListStep α)} (h : before <+: all) (xs : List α) :
    demandAll xs before ≤ demandAll xs all := by
  induction before generalizing all xs with
  | nil => exact Nat.zero_le _
  | cons step rest ih =>
    obtain ⟨more, rfl⟩ := h
    have hrest := ih (List.prefix_append rest more) (step.plain xs).state
    rw [List.cons_append, demandAll, demandAll]
    omega

/-- A chain takes a course of steps as the sequence of its items does. -/
theorem performAll_spec {c : Chain α A} {xs : List α} {steps : List (ListStep α)} (h : c.Holds xs)
    (hroom : demandAll xs steps ≤ SlotMap.room A) :
    ∃ c', performAll steps c = (c', .ok (plainAll xs steps).2) ∧
      c'.Holds (plainAll xs steps).1 := by
  induction steps generalizing c xs with
  | nil => exact ⟨c, rfl, h⟩
  | cons step rest ih =>
    rw [demandAll] at hroom
    obtain ⟨d, hstep, hd⟩ := (perform_spec h step).completes (by omega)
    obtain ⟨c', hrest, hc'⟩ := ih hd (by omega)
    refine ⟨c', ?_, hc'⟩
    rw [performAll, hstep]
    simp only [hrest]
    rfl

/-- A chain that was empty at first is indistinguishable from a plain sequence after every initial part
of a course of steps: every step is completed and answered as the sequence answers it, and the two
agree in all that can be observed. -/
theorem performAll_lockstep (steps : List (ListStep α)) {before : List (ListStep α)}
    (hbefore : before <+: steps) (hroom : demandAll [] steps ≤ SlotMap.room A) :
    ∃ c : Chain α A, performAll before Chain.empty = (c, .ok (plainAll [] before).2) ∧
      c.Shows (plainAll [] before).1 ∧
      ((plainAll [] before).1 = [] →
        Chain.deleteHead c = .ok ⟨none, c, []⟩ ∧ Chain.deleteTail c = .ok ⟨none, c, []⟩) := by
  obtain ⟨c, hrun, hc⟩ := performAll_spec (A := A) Chain.holds_empty
    (Nat.le_trans (demandAll_mono hbefore []) hroom)
  refine ⟨c, hrun, hc.shows, fun hnil => ?_⟩
  rw [hnil] at hc
  exact ⟨hc.deleteHead_nil, hc.deleteTail_nil⟩

/-- Seven steps out of nine. A slot is used again on the way, and the last deletion finds no item. -/
theorem performAll_lockstep_numbers :
    demandAll ([] : List Int) [.append 1, .prepend 0, .deleteTail, .prepend 5, .deleteHead,
        .deleteHead, .deleteTail, .build 7, .extend [2, 3]] ≤ SlotMap.room Arena ∧
      ∃ c : Chain Int,
        performAll [.append 1, .prepend 0, .deleteTail, .prepend 5, .deleteHead, .deleteHead,
            .deleteTail] Chain.empty =
          (c, .ok [.done, .done, .item (some 1), .done, .item (some 5), .item (some 0),
            .item none]) ∧
        c.Shows [] ∧
        (([] : List Int) = [] →
          Chain.deleteHead c = .ok ⟨none, c, []⟩ ∧ Chain.deleteTail c = .ok ⟨none, c, []⟩) := by
  have hroom : demandAll ([] : List Int) [.append 1, .prepend 0, .deleteTail, .prepend 5,
      .deleteHead, .deleteHead, .deleteTail, .build 7, .extend [2, 3]] ≤ SlotMap.room Arena := by
    decide
  exact ⟨hroom, performAll_lockstep _ ⟨[.build 7, .extend [2, 3]], rfl⟩ hroom⟩

end ListStep

end SlotChain

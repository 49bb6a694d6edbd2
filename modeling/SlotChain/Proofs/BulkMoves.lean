import SlotChain.Proofs.Reachable
import SlotChain.Proofs.Room
import SlotChain.Proofs.Sessions

/-!
# Moving all items at once

Whole chains are joined, copied and rebuilt item by item. Whatever the histories of the chains are, no item
is lost, held twice or put out of order on the way, every chain in between is in good order, and the events
tell each single move. A copy has nothing in common with its source: whatever happens to one of them later
leaves the other as it is.
-/

namespace SlotChain

variable {α : Type} {A : Type → Type} [SlotMap A] [Item α]

/-- An action makes a chain in good order that holds some items, and emits some events. -/
structure Makes (r : Except Fault (Outcome (Chain α A) Unit)) (c : Chain α A) (xs : List α)
    (es : List Event) : Prop where
  /-- The action is completed. -/
  completes : r = .ok ⟨(), c, es⟩
  /-- The chain is in good order and holds the items. -/
  intact : c.Intact xs

/-- An action that stands for a plain one makes a chain of the plain items, if they fit. -/
theorem Matches.makes {fits : Prop} {r : Except Fault (Outcome (Chain α A) Unit)} {xs : List α}
    {es : List Event} (h : Matches fits Chain.Holds r ⟨(), xs, es⟩) (hfits : fits) :
    ∃ c, Makes r c xs es ∧ c.Holds xs := by
  obtain ⟨c, hr, hc⟩ := h.completes hfits
  exact ⟨c, ⟨hr, hc.intact⟩, hc⟩

/-- Two chains after some items of the one, `k` of them, have moved to the end of the other. -/
structure Transfer.Moved (t : Transfer α A) (xs ys : List α) (k : Nat) : Prop where
  /-- The source is in good order and holds all but these. -/
  source : t.source.Intact (ys.drop k)
  /-- The target is in good order and holds these behind its own. -/
  target : t.target.Intact (xs ++ ys.take k)
  /-- The lengths sum up to the same as before. -/
  len_add_len : t.source.len + t.target.len = xs.length + ys.length

namespace Chain

/-- What it means that a chain absorbs all items of another. -/
structure Absorbs (c source joined rest : Chain α A) (xs ys : List α) : Prop where
  /-- It is to move all the items. -/
  moves : Transfer.moveUpTo ys.length ⟨source, c⟩ =
    .ok ⟨(), ⟨rest, joined⟩, moveEvents xs.length ys.length⟩
  /-- The other chain is used up. -/
  consumed : rest.Intact []
  /-- Its items stand behind the others, in order. -/
  absorbs : Makes (Chain.absorb source c) joined (xs ++ ys) (moveEvents xs.length ys.length)
  /-- In a session, nothing is left under the name of the other chain. -/
  named : ∀ (s : Session α A) (name other : String), name ≠ other → s.list name = c →
    s.list other = source →
    ∃ s', Session.perform (.absorb name other) s =
        .ok ⟨.done, s', moveEvents xs.length ys.length⟩ ∧
      s'.list name = joined ∧ s'.list other = Chain.empty

/-- What it means that the items of another chain can be moved to the end of a chain. -/
structure Joins (c source : Chain α A) (xs ys : List α) : Prop where
  /-- The items of the other chain can be read. -/
  items : source.items = .ok ys
  /-- Items move one after the other, as far as there is room. -/
  moves : ∀ k ≤ ys.length, xs.length + k ≤ SlotMap.room A →
    ∃ t, Transfer.moveUpTo k ⟨source, c⟩ = .ok ⟨(), t, firstMoves xs.length ys.length k⟩ ∧
      t.Moved xs ys k
  /-- All are absorbed if there is room for them. -/
  absorbs : xs.length + ys.length ≤ SlotMap.room A → ∃ joined rest, c.Absorbs source joined rest xs ys
  /-- Otherwise absorbing is refused. -/
  refuses : SlotMap.room A < xs.length + ys.length →
    Chain.absorb source c = .error .capacityOverflow

/-- What it means that a chain regains its items, when it is taken away, an empty one is left in its place,
and that is extended by what was taken. -/
structure Regains (c d : Chain α A) (xs : List α) : Prop where
  /-- The items move to the empty chain. -/
  absorbs : Makes (Chain.absorb c Chain.empty) d xs (moveEvents 0 xs.length)
  /-- In a session, they are under the same name as before. -/
  named : ∀ (s : Session α A) (name : String), s.list name = c →
    ∃ s', Session.perform (.absorb name name) s = .ok ⟨.done, s', moveEvents 0 xs.length⟩ ∧
      s'.list name = d
  /-- The chain is equal to what it was. -/
  equals : d.equals c = .ok true

/-- What it means that a chain is gathered from the items that another gives up. -/
structure Gathers (c d : Chain α A) (xs : List α) : Prop where
  /-- The items move to a new chain. -/
  gathers : Makes c.gather d xs (moveEvents 0 xs.length)
  /-- It is equal to the chain that gave them up. -/
  equals : d.equals c = .ok true

/-- What it means that a chain has a copy. -/
structure Copies (c d : Chain α A) (xs : List α) : Prop where
  /-- The items are appended to a new chain. -/
  copies : Makes c.copy d xs (appendEvents 0 xs.length)
  /-- It is equal to its source. -/
  equals : d.equals c = .ok true
  /-- In a session, copying leaves the source as it is. Later steps leave the source as it is unless they
  are about it, and the copy as it is unless they are about that. -/
  apart : ∀ (s : Session α A) (source target : String), source ≠ target → s.list source = c →
    ∃ s', Session.perform (.copy source target) s =
        .ok ⟨.done, s', appendEvents 0 xs.length⟩ ∧
      ∀ later : List (SessionStep α),
        ((∀ step ∈ later, source ∉ step.changed) → (Session.follow later s').list source = c) ∧
        ((∀ step ∈ later, target ∉ step.changed) → (Session.follow later s').list target = d)

/-- What can be done with all items of a chain at once. -/
structure MovesInBulk (c : Chain α A) (xs : List α) : Prop where
  /-- These are the items. -/
  items : c.items = .ok xs
  /-- The items of any chain can be moved to its end. -/
  joins : ∀ source : Chain α A, source.Reachable → ∃ ys, c.Joins source xs ys
  /-- It can be extended by its own former items. -/
  regains : ∃ d, c.Regains d xs
  /-- A new chain can be gathered from it. -/
  gathers : ∃ d, c.Gathers d xs
  /-- It can be copied. -/
  copies : ∃ d, c.Copies d xs

section

variable {c source : Chain α A} {xs ys : List α}

/-- All items of one chain can be absorbed by another, if there is room for them. -/
theorem Holds.absorbs (h : c.Holds xs) (hsource : source.Holds ys)
    (hroom : xs.length + ys.length ≤ SlotMap.room A) :
    ∃ joined rest, c.Absorbs source joined rest xs ys := by
  obtain ⟨⟨rest, joined⟩, hmoves, hrest, hjoined⟩ :=
    (Transfer.moveUpTo_spec (t := ⟨source, c⟩) ⟨hsource, h⟩ (Nat.le_refl _)).completes hroom
  simp only [List.drop_length] at hrest
  simp only [List.take_length] at hjoined
  have habsorb : Chain.absorb source c = .ok ⟨(), joined, moveEvents xs.length ys.length⟩ := by
    rw [Chain.absorb, hsource.len_eq, Transfer.absorbUpTo_eq, hmoves]
    rfl
  refine ⟨joined, rest, hmoves, hrest.intact, ⟨habsorb, hjoined.intact⟩, ?_⟩
  intro s name other hne hname hother
  -- Emptying the other list first does not matter to this one, whose name is not the same.
  refine ⟨(s.put other Chain.empty).put name joined, ?_, Session.list_put_self _ _ _, ?_⟩
  · refine Session.perform_absorb ?_
    rwa [Session.list_put_of_ne _ hne, hname, hother]
  · rw [Session.list_put_of_ne _ hne.symm, Session.list_put_self]

variable [BoundedSlotMap A]

/-- The items of one chain can be moved to the end of another. -/
theorem Holds.joins (h : c.Holds xs) (hsource : source.Holds ys) : c.Joins source xs ys where
  items := hsource.items_eq
  moves k hk hroom := by
    obtain ⟨t, hmoves, hleft, harrived⟩ :=
      (Transfer.moveUpTo_spec (t := ⟨source, c⟩) ⟨hsource, h⟩ hk).completes hroom
    refine ⟨t, hmoves, hleft.intact, harrived.intact, ?_⟩
    rw [hleft.len_eq, harrived.len_eq, List.length_drop, List.length_append, List.length_take]
    omega
  absorbs := h.absorbs hsource
  refuses hroom := by
    refine (h.absorb hsource).eq_error ?_
    rwa [List.length_append]

/-- A chain can be extended by its own former items. -/
theorem Holds.regains [ReflBEq α] (h : c.Holds xs) : ∃ d, c.Regains d xs := by
  obtain ⟨d, hmakes, hd⟩ := h.absorb_empty.makes h.length_le_room
  refine ⟨d, hmakes, fun s name hname => ?_, hd.equals_same h⟩
  refine ⟨(s.put name Chain.empty).put name d, ?_, Session.list_put_self _ _ _⟩
  refine Session.perform_absorb ?_
  rw [Session.list_put_self, hname]
  exact hmakes.completes

/-- A new chain can be gathered from a chain. -/
theorem Holds.gathers [ReflBEq α] (h : c.Holds xs) : ∃ d, c.Gathers d xs := by
  obtain ⟨d, hmakes, hd⟩ := h.gather.makes h.length_le_room
  exact ⟨d, hmakes, hd.equals_same h⟩

/-- A chain can be copied. -/
theorem Holds.copies [ReflBEq α] (h : c.Holds xs) : ∃ d, c.Copies d xs := by
  obtain ⟨d, hmakes, hd⟩ := h.copy.makes h.length_le_room
  refine ⟨d, hmakes, hd.equals_same h, fun s source target hne hsource => ?_⟩
  refine ⟨s.put target d, ?_, fun later => ⟨fun hlater => ?_, fun hlater => ?_⟩⟩
  · refine Session.perform_copy ?_
    rw [hsource]
    exact hmakes.completes
  · rw [Session.list_of_follow hlater, Session.list_put_of_ne s hne, hsource]
  · rw [Session.list_of_follow hlater, Session.list_put_self]

end

/-- All items of a reachable chain can be moved, taken back and copied at once, with no loss and in order,
and a chain can be built of any items for which there is room. -/
theorem Reachable.bulk_exact [BoundedSlotMap A] [ReflBEq α] :
    (∀ c : Chain α A, c.Reachable → ∃ xs, c.MovesInBulk xs) ∧
      ∀ zs : List α,
        (zs.length ≤ SlotMap.room A →
          ∃ c : Chain α A, Makes (Chain.ofList zs) c zs (appendEvents 0 zs.length)) ∧
        (SlotMap.room A < zs.length →
          (Chain.ofList zs : Except Fault (Outcome (Chain α A) Unit)) = .error .capacityOverflow) := by
  constructor
  · intro c hc
    obtain ⟨xs, hxs⟩ := hc.holds
    refine ⟨xs, hxs.items_eq, fun source hsource => ?_, hxs.regains, hxs.gathers, hxs.copies⟩
    obtain ⟨ys, hys⟩ := hsource.holds
    exact ⟨ys, hxs.joins hys⟩
  · intro zs
    refine ⟨fun hroom => ?_, fun hroom => (ofList_spec (A := A) zs).eq_error hroom⟩
    obtain ⟨c, hmakes, -⟩ := (ofList_spec (A := A) zs).makes hroom
    exact ⟨c, hmakes⟩

/-- Two numbers, one of them in a slot that was used before, and two others behind them. -/
theorem Reachable.bulk_exact_numbers :
    ∃ c source : Chain Int,
      ListStep.performAll [.append 5, .append 1, .deleteHead, .prepend 2] .empty =
        (c, .ok [.done, .done, .item (some 5), .done]) ∧
      ListStep.performAll [.build 4, .extend [7, 8, 9], .deleteTail] .empty =
        (source, .ok [.done, .done, .item (some 9)]) ∧
      c.Reachable ∧ source.Reachable ∧ c.MovesInBulk [2, 1] ∧
      (∃ joined, Makes (Chain.absorb source c) joined [2, 1, 7, 8]
        [.mutated .deleteHead 1, .mutated .append 3, .mutated .deleteHead 0, .mutated .append 4]) ∧
      ∃ built : Chain Int,
        Makes (Chain.ofList [3, 3]) built [3, 3] [.mutated .append 1, .mutated .append 2] := by
  obtain ⟨c, hrun, hreach, hc⟩ :=
    of_steps (A := Arena) [.append 5, .append 1, .deleteHead, .prepend (2 : Int)] (by decide)
  obtain ⟨source, hrun', hreach', hsource⟩ :=
    of_steps (A := Arena) [.build 4, .extend [7, 8, (9 : Int)], .deleteTail] (by decide)
  obtain ⟨hall, hbuild⟩ := bulk_exact (α := Int) (A := Arena)
  obtain ⟨xs, hbulk⟩ := hall c hreach
  have hxs : xs = [2, 1] := hc.eq_of_items hbulk.items
  subst hxs
  obtain ⟨ys, hjoins⟩ := hbulk.joins source hreach'
  have hys : ys = [7, 8] := hsource.eq_of_items hjoins.items
  subst hys
  obtain ⟨joined, _, habsorbs⟩ := hjoins.absorbs (by decide)
  exact ⟨c, source, hrun, hrun', hreach, hreach', hbulk, ⟨joined, habsorbs.absorbs⟩,
    (hbuild [3, 3]).1 (by decide)⟩

end Chain

end SlotChain

import SlotChain.Chain.Mutation
import SlotChain.Proofs.Auditing
import SlotChain.Proofs.Outcomes
import SlotChain.Proofs.Splicing

/-!
# Mutations act on the sequence of items

Each mutation at an end of a well-formed chain leaves a well-formed chain whose run has one cell more or
less at that end, and emits one event with the new length. An insertion can only be refused by a full
arena; the length itself never overflows, because it counts distinct tokens, and no other fault is
possible.
-/

namespace SlotChain.Chain

variable {α : Type} {A : Type → Type} [SlotMap A]

/-- The conclusion of a mutation never fails on a well-formed chain. -/
theorem Threads.conclude {β : Type} {c : Chain α A} {cells : List (Token × α)} (h : c.Threads cells)
    (change : Mutation) (answer : β) :
    c.conclude change answer = .ok ⟨answer, c, [.mutated change cells.length]⟩ := by
  rw [Chain.conclude, h.audit, h.len]
  rfl

/-- A new item can be stored and linked at any place of a chain, unless the arena is full. What is left
to do then is to set the ends and the length. -/
theorem Threads.splice {c : Chain α A} {front back : List (Token × α)}
    (h : c.Threads (front ++ back)) (item : α) :
    (c.store item = .error .capacityOverflow ∧ SlotMap.room A ≤ (front ++ back).length) ∨
      ∃ t a a', c.store item = .ok (t, { c with arena := a }) ∧
        { c with arena := a }.linkBetween t (lastToken front) (firstToken back) =
          .ok { c with arena := a' } ∧
        c.len + 1 < wordLimit ∧
        Threads ⟨firstToken (front ++ (t, item) :: back), lastToken (front ++ (t, item) :: back), a',
          c.len + 1⟩ (front ++ (t, item) :: back) := by
  rcases store_spec c item with ⟨hstore, hfull⟩ | ⟨t, a, hstore, hvacant, hslots⟩
  · left
    rw [h.size_eq] at hfull
    exact ⟨hstore, hfull⟩
  · right
    have hfresh : t ∉ tokensOf (front ++ back) := by
      intro ht
      have hsome := h.linked.isSome ht
      rw [hvacant] at hsome
      cases hsome
    have hperm := tokensOf_middle_perm front back t item
    have hnodup : (tokensOf (front ++ (t, item) :: back)).Nodup :=
      hperm.nodup_iff.2 (List.nodup_cons.2 ⟨hfresh, h.nodup⟩)
    have hrun : Linked (cellAt a) none (front ++ back) none := by
      refine h.linked.congr fun s hs => ?_
      rw [cellAt, hslots, if_neg, cellAt]
      exact fun e => hfresh (Token.key_injective e ▸ hs)
    have hnew : cellAt a t = some ⟨none, none, item⟩ := by
      rw [cellAt, hslots, if_pos rfl]
    obtain ⟨a', hlink, hsame, hlinked⟩ :=
      linkBetween_spec (c := { c with arena := a }) hnodup hrun ⟨_, _, hnew⟩
    have hlen : c.len + 1 = (front ++ (t, item) :: back).length := by
      rw [h.len]
      simp only [List.length_append, List.length_cons, Nat.add_assoc]
    refine ⟨t, a, a', hstore, hlink, ?_, hnodup, ?_, hlinked, rfl, rfl, hlen⟩
    · have hlt := length_lt_of_nodup hnodup
      rwa [tokensOf, List.length_map, ← hlen] at hlt
    · intro k hk
      rw [hsame, hslots] at hk
      split at hk
      · rename_i e
        exact ⟨t, hperm.mem_iff.2 List.mem_cons_self, e.symm⟩
      · obtain ⟨s, hs, hsk⟩ := h.occupied k hk
        exact ⟨s, hperm.mem_iff.2 (List.mem_cons_of_mem _ hs), hsk⟩

/-- Prepending puts one new cell in front of the run. -/
theorem Threads.prepend {c : Chain α A} {cells : List (Token × α)} (h : c.Threads cells) (item : α) :
    (Chain.prepend item c = .error .capacityOverflow ∧ SlotMap.room A ≤ cells.length) ∨
      ∃ t c', Chain.prepend item c = .ok ⟨(), c', [.mutated .prepend (cells.length + 1)]⟩ ∧
        c'.Threads ((t, item) :: cells) := by
  have h' : c.Threads ([] ++ cells) := h
  rcases h'.splice item with ⟨hstore, hfull⟩ | ⟨t, a, a', hstore, hlink, hword, hnew⟩
  · left
    refine ⟨?_, hfull⟩
    rw [Chain.prepend, hstore]
    rfl
  · right
    refine ⟨t, _, ?_, hnew⟩
    have hgrow : ({ c with arena := a', head := some t, tail := c.tail.or (some t) }).grow =
        .ok ⟨some t, lastToken ((t, item) :: cells), a', c.len + 1⟩ := by
      rw [grow, if_pos hword, h.tail, lastToken_cons]
    rw [lastToken_nil, ← h.head] at hlink
    rw [Chain.prepend, bind_of_eq_ok hstore]
    simp only
    rw [bind_of_eq_ok hlink, bind_of_eq_ok hgrow]
    exact hnew.conclude .prepend ()

/-- Appending puts one new cell behind the run. -/
theorem Threads.append {c : Chain α A} {cells : List (Token × α)} (h : c.Threads cells) (item : α) :
    (Chain.append item c = .error .capacityOverflow ∧ SlotMap.room A ≤ cells.length) ∨
      ∃ t c', Chain.append item c = .ok ⟨(), c', [.mutated .append (cells.length + 1)]⟩ ∧
        c'.Threads (cells ++ [(t, item)]) := by
  have h' : c.Threads (cells ++ []) := by rwa [List.append_nil]
  rcases h'.splice item with ⟨hstore, hfull⟩ | ⟨t, a, a', hstore, hlink, hword, hnew⟩
  · left
    rw [List.append_nil] at hfull
    refine ⟨?_, hfull⟩
    rw [Chain.append, hstore]
    rfl
  · right
    refine ⟨t, _, ?_, hnew⟩
    have hgrow : ({ c with arena := a', tail := some t, head := c.head.or (some t) }).grow =
        .ok ⟨firstToken (cells ++ [(t, item)]), lastToken (cells ++ [(t, item)]), a', c.len + 1⟩ := by
      rw [grow, if_pos hword, h.head, firstToken_append, lastToken_concat, firstToken_cons]
    rw [firstToken_nil, ← h.tail] at hlink
    rw [Chain.append, bind_of_eq_ok hstore]
    simp only
    rw [bind_of_eq_ok hlink, bind_of_eq_ok hgrow, hnew.conclude .append (), List.length_append]
    rfl

/-- Deleting the head of a chain that has one returns its item and takes its cell off the run. -/
theorem Threads.deleteHead {c : Chain α A} {cells : List (Token × α)} {t : Token} {x : α}
    (h : c.Threads ((t, x) :: cells)) :
    ∃ c', Chain.deleteHead c = .ok ⟨some x, c', [.mutated .deleteHead cells.length]⟩ ∧
      c'.Threads cells := by
  have h' : c.Threads ([] ++ (t, x) :: cells) := h
  obtain ⟨c', hunlink, hnew⟩ := unlink_spec h'
  refine ⟨c', ?_, hnew⟩
  rw [Chain.deleteHead, h.head, firstToken_cons, deleteAt, bind_of_eq_ok hunlink]
  exact hnew.conclude .deleteHead (some x)

/-- Deleting the tail of a chain that has one returns its item and takes its cell off the run. -/
theorem Threads.deleteTail {c : Chain α A} {cells : List (Token × α)} {t : Token} {x : α}
    (h : c.Threads (cells ++ [(t, x)])) :
    ∃ c', Chain.deleteTail c = .ok ⟨some x, c', [.mutated .deleteTail cells.length]⟩ ∧
      c'.Threads cells := by
  obtain ⟨c', hunlink, hnew⟩ := unlink_spec h
  rw [List.append_nil] at hnew
  refine ⟨c', ?_, hnew⟩
  rw [Chain.deleteTail, h.tail, lastToken_concat, deleteAt, bind_of_eq_ok hunlink]
  exact hnew.conclude .deleteTail (some x)

/-- Prepending to a chain pushes to the front of its items. -/
theorem Holds.prepend {c : Chain α A} {xs : List α} (h : c.Holds xs) (item : α) :
    Matches (xs.length < SlotMap.room A) Holds (Chain.prepend item c)
      ⟨(), item :: xs, [.mutated .prepend (xs.length + 1)]⟩ := by
  obtain ⟨cells, hcells, rfl⟩ := h
  rw [List.length_map]
  rcases hcells.prepend item with ⟨hfault, hfull⟩ | ⟨t, c', hok, hnew⟩
  · rw [hfault]
    exact .refused (Nat.not_lt_of_le hfull)
  · rw [hok]
    exact .done ⟨_, hnew, rfl⟩

/-- Appending to a chain pushes to the back of its items. -/
theorem Holds.append {c : Chain α A} {xs : List α} (h : c.Holds xs) (item : α) :
    Matches (xs.length < SlotMap.room A) Holds (Chain.append item c)
      ⟨(), xs ++ [item], [.mutated .append (xs.length + 1)]⟩ := by
  obtain ⟨cells, hcells, rfl⟩ := h
  rw [List.length_map]
  rcases hcells.append item with ⟨hfault, hfull⟩ | ⟨t, c', hok, hnew⟩
  · rw [hfault]
    exact .refused (Nat.not_lt_of_le hfull)
  · rw [hok]
    exact .done ⟨_, hnew, List.map_append⟩

/-- Deleting the head of a chain with items pops the first. -/
theorem Holds.deleteHead_cons {c : Chain α A} {x : α} {xs : List α} (h : c.Holds (x :: xs)) :
    ∃ c', Chain.deleteHead c = .ok ⟨some x, c', [.mutated .deleteHead xs.length]⟩ ∧
      c'.Holds xs := by
  obtain ⟨cells, hcells, hitems⟩ := h
  obtain ⟨⟨t, y⟩, rest, rfl, rfl, rfl⟩ := List.map_eq_cons_iff.1 hitems
  obtain ⟨c', hok, hnew⟩ := hcells.deleteHead
  rw [← List.length_map Prod.snd] at hok
  exact ⟨c', hok, rest, hnew, rfl⟩

/-- Deleting the tail of a chain with items pops the last. -/
theorem Holds.deleteTail_concat {c : Chain α A} {x : α} {xs : List α} (h : c.Holds (xs ++ [x])) :
    ∃ c', Chain.deleteTail c = .ok ⟨some x, c', [.mutated .deleteTail xs.length]⟩ ∧
      c'.Holds xs := by
  obtain ⟨cells, hcells, hitems⟩ := h
  obtain ⟨front, last, rfl, rfl, hlast⟩ := List.map_eq_append_iff.1 hitems
  obtain ⟨⟨t, y⟩, rest, rfl, rfl, hrest⟩ := List.map_eq_cons_iff.1 hlast
  obtain rfl := List.map_eq_nil_iff.1 hrest
  obtain ⟨c', hok, hnew⟩ := hcells.deleteTail
  rw [← List.length_map Prod.snd] at hok
  exact ⟨c', hok, front, hnew, rfl⟩

/-- Deleting the head of an empty chain changes nothing at all. -/
theorem Holds.deleteHead_nil {c : Chain α A} (h : c.Holds []) :
    Chain.deleteHead c = .ok ⟨none, c, []⟩ := by
  obtain ⟨cells, hcells, hitems⟩ := h
  obtain rfl := List.map_eq_nil_iff.1 hitems
  rw [Chain.deleteHead, hcells.head]
  rfl

/-- Deleting the tail of an empty chain changes nothing at all. -/
theorem Holds.deleteTail_nil {c : Chain α A} (h : c.Holds []) :
    Chain.deleteTail c = .ok ⟨none, c, []⟩ := by
  obtain ⟨cells, hcells, hitems⟩ := h
  obtain rfl := List.map_eq_nil_iff.1 hitems
  rw [Chain.deleteTail, hcells.tail]
  rfl

end SlotChain.Chain

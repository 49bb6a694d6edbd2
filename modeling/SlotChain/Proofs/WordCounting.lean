import SlotChain.Proofs.AuditVerdict
import SlotChain.Proofs.Cursors
import SlotChain.Proofs.Mutations

/-!
# Counting in machine words

A chain counts its cells, a cursor the items ahead of it and the audit its steps, one at a time and in
machine words. Here the operations are put down once more for a machine whose counting is left open at
the edges of a word: it may stop there with a fault, or wrap around. On a well-formed chain every
operation does what it does with exact numbers, so the edges are never met. The reason is not that the
edges are guarded. Taking out a cell, for one, looks at the ends of the chain and then counts down; that
there is something to count follows from the order of the cells.
-/

namespace SlotChain

variable {α β : Type} {A : Type → Type}

/-- How a machine counts. It is exact within a word; nothing is said of what comes out where a count
would leave the word. -/
structure Counting where
  /-- Count one up. -/
  up : Nat → Except Fault Nat
  /-- Count one down. -/
  down : Nat → Except Fault Nat
  /-- Counting up is exact from any word but the largest. -/
  up_eq : ∀ n, n + 1 < wordLimit → up n = .ok (n + 1)
  /-- Counting down is exact from any word but zero. -/
  down_eq : ∀ n, n + 1 < wordLimit → down (n + 1) = .ok n

namespace Counting

/-- A machine that stops with a fault at the edges of a word. -/
def trapping : Counting where
  up n := if n + 1 < wordLimit then .ok (n + 1) else .error .lengthOverflow
  down
    | 0 => .error .lengthUnderflow
    | n + 1 => .ok n
  up_eq _ h := if_pos h
  down_eq _ _ := rfl

/-- A machine that goes on at the other edge of the word. -/
def wrapping : Counting where
  up n := .ok (UInt64.ofNat n + 1).toNat
  down n := .ok (UInt64.ofNat n - 1).toNat
  up_eq n h := by
    have hn : (UInt64.ofNat n).toNat = n := UInt64.toNat_ofNat_of_lt' (Nat.lt_of_succ_lt h)
    rw [UInt64.toNat_add, hn]
    exact congrArg Except.ok (Nat.mod_eq_of_lt h)
  down_eq n h := by
    have hn : (UInt64.ofNat (n + 1)).toNat = n + 1 := UInt64.toNat_ofNat_of_lt' h
    rw [UInt64.toNat_sub_of_le, hn]
    · rfl
    · rw [UInt64.le_iff_toNat_le, hn]
      exact Nat.succ_le_succ (Nat.zero_le n)

example : wrapping.up 18446744073709551615 = .ok 0 ∧
    wrapping.down 0 = .ok 18446744073709551615 := ⟨rfl, rfl⟩

variable (m : Counting)

/-- A key has a token, and a machine comes back to the key when it counts down from there. -/
def Recovers (key : Nat) : Prop :=
  ∃ t, Token.ofKey key = .ok t ∧ t.key = key ∧ m.down t.number = .ok key

/-- Whatever a token stands for is recovered from it. -/
theorem recovers_key (t : Token) : m.Recovers t.key := by
  refine ⟨t, t.ofKey_key, rfl, ?_⟩
  have hlt := t.number_lt
  rw [← t.key_succ] at hlt ⊢
  exact m.down_eq _ hlt

/-! ### The operations of a machine -/

/-- Count one cell more. -/
def grow (c : Chain α A) : Except Fault (Chain α A) := (m.up c.len).map fun len => { c with len }

/-- Count one cell less. -/
def shrink (c : Chain α A) : Except Fault (Chain α A) := (m.down c.len).map fun len => { c with len }

/-- Chains count cells up as a machine does that stops at the edges. -/
theorem trapping_grow (c : Chain α A) : trapping.grow c = c.grow := by
  simp only [grow, trapping, Chain.grow]
  split <;> rfl

/-- Chains count cells down as a machine does that stops at the edges. -/
theorem trapping_shrink (c : Chain α A) : trapping.shrink c = c.shrink := by
  simp only [shrink, trapping, Chain.shrink]
  cases c.len <;> rfl

/-- A chain with room in its length counts one cell more. -/
theorem grow_eq {c : Chain α A} (h : c.len + 1 < wordLimit) : m.grow c = c.grow := by
  rw [← trapping_grow, grow, grow, m.up_eq _ h, trapping.up_eq _ h]

/-- A chain that has cells, by its length, counts one less. -/
theorem shrink_eq {c : Chain α A} (hpos : 0 < c.len) (hword : c.len < wordLimit) :
    m.shrink c = c.shrink := by
  obtain ⟨n, hn⟩ : ∃ n, c.len = n + 1 := Nat.exists_eq_succ_of_ne_zero (Nat.ne_of_gt hpos)
  rw [hn] at hword
  rw [← trapping_shrink, shrink, shrink, hn, m.down_eq n hword, trapping.down_eq n hword]

variable [SlotMap A]

/-- Take a cell out of a chain, as `Chain.unlink` does. -/
def unlink (c : Chain α A) (t : Token) : Except Fault (α × Chain α A) := do
  let cell ← c.cell t
  let c := { c with
    arena := SlotMap.erase c.arena t.key
    head := if c.head = some t then cell.next else c.head
    tail := if c.tail = some t then cell.prev else c.tail }
  let c ← c.relinkNeighbour (fun p => { p with next := cell.next }) cell.prev
  let c ← c.relinkNeighbour (fun n => { n with prev := cell.prev }) cell.next
  let c ← m.shrink c
  return (cell.item, c)

/-- Visit a cell on a walk of the audit: check the link back, count the cell, and check that there are
not too many. -/
def visit (c : Chain α A) (onward backward : Cell α → Option Token) (s : Chain.Stage) (t : Token) :
    Except Fault Chain.Stage := do
  let cell ← c.cell t
  if backward cell = s.before then
    let steps ← m.up s.steps
    if steps ≤ c.len then return ⟨some t, onward cell, steps⟩ else .error .brokenChain
  else .error .brokenChain

/-- Visit cells until there are none, for a number of rounds at most. The audit allows for one round more
than the chain is long: where steps are counted exactly, a walk that does not end is stopped by their number
before it runs out of rounds. -/
def walk (c : Chain α A) (onward backward : Cell α → Option Token) :
    (rounds : Nat) → Chain.Stage → Except Fault Chain.Stage
  | 0, _ => .error .brokenChain
  | rounds + 1, s =>
    match s.cursor with
    | none => .ok s
    | some t => do walk c onward backward rounds (← m.visit c onward backward s t)

/-- Walk from one end of a chain, which has to lead to the other end in as many steps as the chain is
long. -/
def traverse (c : Chain α A) (onward backward : Cell α → Option Token) (start finish : Option Token) :
    Except Fault Unit := do
  let s ← m.walk c onward backward (c.len + 1) ⟨none, start, 0⟩
  if s.before = finish ∧ s.steps = c.len then return () else .error .brokenChain

/-- Whether the ends, the length and the number of cells agree, as far as can be told without a walk. -/
def endsAgree (c : Chain α A) : Bool :=
  c.head.isNone == c.tail.isNone
    && c.head.isNone == (c.len == 0)
    && c.len == SlotMap.size c.arena
    && c.openEnd Cell.prev c.head
    && c.openEnd Cell.next c.tail
    && (c.len != 1 || c.head == c.tail)

/-- The audit of a chain: a look at its ends, and then both walks. -/
def audit (c : Chain α A) : Except Fault Unit :=
  if endsAgree c then do
    m.traverse c Cell.next Cell.prev c.head c.tail
    m.traverse c Cell.prev Cell.next c.tail c.head
  else .error .brokenChain

/-- Conclude a mutation: emit its event and audit the chain. -/
def conclude (change : Mutation) (answer : β) (c : Chain α A) :
    Except Fault (Outcome (Chain α A) β) :=
  (m.audit c).map fun _ => ⟨answer, c, [.mutated change c.len]⟩

/-- Insert an item as the new head, as `Chain.prepend` does. -/
def prepend (item : α) : Act (Chain α A) Unit := fun c => do
  let (t, c) ← c.store item
  let c ← c.linkBetween t none c.head
  let c ← m.grow { c with head := some t, tail := c.tail.or (some t) }
  m.conclude .prepend () c

/-- Insert an item as the new tail, as `Chain.append` does. -/
def append (item : α) : Act (Chain α A) Unit := fun c => do
  let (t, c) ← c.store item
  let c ← c.linkBetween t c.tail none
  let c ← m.grow { c with tail := some t, head := c.head.or (some t) }
  m.conclude .append () c

/-- Remove the cell at one end, as `Chain.deleteAt` does. -/
def deleteAt (change : Mutation) (c : Chain α A) :
    Option Token → Except Fault (Outcome (Chain α A) (Option α))
  | none => .ok ⟨none, c, []⟩
  | some t => do
    let (item, c) ← m.unlink c t
    m.conclude change (some item) c

/-- Remove the head. -/
def deleteHead : Act (Chain α A) (Option α) := fun c => m.deleteAt .deleteHead c c.head

/-- Remove the tail. -/
def deleteTail : Act (Chain α A) (Option α) := fun c => m.deleteAt .deleteTail c c.tail

/-- Yield the item at one position of a cursor, unless nothing remains, and move that position on. -/
def yield (c : Chain α A) (k : Cursor) (position : Option Token)
    (moved : Cell α → (remaining : Nat) → Cursor) : Except Fault (Outcome Cursor (Option α)) :=
  if k.remaining = 0 then .ok ⟨none, k, []⟩
  else
    match position with
    | none => .ok ⟨none, k, []⟩
    | some t => do
      let cell ← c.cell t
      let remaining ← m.down k.remaining
      return ⟨some cell.item, moved cell remaining, []⟩

/-- Yield the item at the front, as `Cursor.next` does. -/
def next (c : Chain α A) : Act Cursor (Option α) := fun k =>
  m.yield c k k.front fun cell remaining => { k with front := cell.next, remaining }

/-- Yield the item at the back, as `Cursor.nextBack` does. -/
def nextBack (c : Chain α A) : Act Cursor (Option α) := fun k =>
  m.yield c k k.back fun cell remaining => { k with back := cell.prev, remaining }

/-! ### Counting within a word is exact -/

/-- Relinking does not touch the length. -/
theorem len_of_relinkNeighbour {c c' : Chain α A} {f : Cell α → Cell α} {neighbour : Option Token}
    (h : c.relinkNeighbour f neighbour = .ok c') : c'.len = c.len := by
  cases neighbour with
  | none =>
    cases h
    rfl
  | some t =>
    obtain ⟨cell, -, rfl⟩ := map_eq_ok.1 h
    rfl

/-- Taking out a cell counts down, and does nothing else to the length. -/
theorem unlink_eq {c : Chain α A} (hpos : 0 < c.len) (hword : c.len < wordLimit) (t : Token) :
    m.unlink c t = c.unlink t := by
  refine bind_congr_of_ok fun cell _ => bind_congr_of_ok fun c₁ h₁ => bind_congr_of_ok fun c₂ h₂ => ?_
  have hlen₁ := len_of_relinkNeighbour h₁
  have hlen₂ : c₂.len = c.len := (len_of_relinkNeighbour h₂).trans hlen₁
  rw [← hlen₂] at hpos hword
  rw [m.shrink_eq hpos hword]

/-- A cell that is in order is visited alike on every machine, if there are not too many of them. -/
theorem visit_eq {c : Chain α A} {onward backward : Cell α → Option Token} {t : Token} {cell : Cell α}
    {steps : Nat} (hword : steps + 1 < wordLimit) (hcell : c.cell t = .ok cell) :
    m.visit c onward backward ⟨backward cell, some t, steps⟩ t =
      if steps + 1 ≤ c.len then .ok ⟨some t, onward cell, steps + 1⟩ else .error .brokenChain := by
  rw [visit, bind_of_eq_ok hcell]
  simp only [if_true]
  rw [bind_of_eq_ok (m.up_eq steps hword)]
  rfl

/-- A walk of the audit that comes to an end within the length of the chain comes to the same end on
every machine. -/
theorem walk_of_trail {c : Chain α A} {onward backward : Cell α → Option Token}
    {budget steps n : Nat} {before cursor last : Option Token} (hword : c.len < wordLimit)
    (h : c.trail onward backward budget before cursor = some (last, n)) (hsteps : steps + n ≤ c.len) :
    m.walk c onward backward (budget + 1) ⟨before, cursor, steps⟩ = .ok ⟨last, none, steps + n⟩ := by
  induction budget generalizing before cursor steps n with
  | zero =>
    cases cursor with
    | none =>
      cases h
      rfl
    | some t => cases h
  | succ budget ih =>
    cases cursor with
    | none =>
      cases h
      rfl
    | some t =>
      rw [Chain.trail] at h
      split at h
      · cases h
      · rename_i cell hcell
        split at h
        · rename_i hback
          subst hback
          obtain ⟨⟨last', n'⟩, hrest, heq⟩ := Option.map_eq_some_iff.1 h
          cases heq
          have hvisit : m.visit c onward backward ⟨backward cell, some t, steps⟩ t =
              .ok ⟨some t, onward cell, steps + 1⟩ := by
            rw [m.visit_eq (by omega) (Chain.cell_of_cellAt hcell), if_pos (by omega)]
          rw [walk]
          simp only
          rw [bind_of_eq_ok hvisit, ih hrest (by omega), Nat.add_assoc, Nat.add_comm 1]
        · cases h

/-- A walk on a machine comes to no other end than the audit goes by. -/
theorem trail_of_walk {c : Chain α A} {onward backward : Cell α → Option Token} {budget steps : Nat}
    {before cursor : Option Token} {s : Chain.Stage} (hword : c.len + 1 < wordLimit)
    (hbudget : steps + budget = c.len)
    (h : m.walk c onward backward (budget + 1) ⟨before, cursor, steps⟩ = .ok s) :
    ∃ n, c.trail onward backward budget before cursor = some (s.before, n) ∧ s.steps = steps + n := by
  induction budget generalizing before cursor steps with
  | zero =>
    cases cursor with
    | none =>
      cases h
      exact ⟨0, rfl, rfl⟩
    | some t =>
      -- whatever the visit comes to, no round is left
      obtain ⟨_, -, hrest⟩ := bind_eq_ok.1 h
      cases hrest
  | succ budget ih =>
    cases cursor with
    | none =>
      cases h
      exact ⟨0, rfl, rfl⟩
    | some t =>
      obtain ⟨s', hvisit, hrest⟩ := bind_eq_ok.1 h
      obtain ⟨cell, hcell, hcheck⟩ := bind_eq_ok.1 hvisit
      split at hcheck
      · rename_i hback
        simp only at hback
        subst hback
        rw [m.visit_eq (by omega) hcell, if_pos (by omega)] at hvisit
        cases hvisit
        obtain ⟨n, htrail, hsteps⟩ := ih (by omega) hrest
        refine ⟨n + 1, ?_, by omega⟩
        have hget : SlotMap.get? c.arena t.key = some cell := Chain.cellAt_of_cell hcell
        simp only [Chain.trail, hget, if_true, htrail, Option.map_some]
      · cases hcheck

/-- The audit goes by the ends and by where both walks come to. -/
theorem sound_iff (c : Chain α A) :
    c.sound = true ↔ endsAgree c = true ∧
      c.trail Cell.next Cell.prev c.len none c.head = some (c.tail, c.len) ∧
      c.trail Cell.prev Cell.next c.len none c.tail = some (c.head, c.len) := by
  have hsplit : c.sound = (endsAgree c &&
      c.trail Cell.next Cell.prev c.len none c.head == some (c.tail, c.len) &&
      c.trail Cell.prev Cell.next c.len none c.tail == some (c.head, c.len)) := rfl
  simp only [hsplit, Bool.and_eq_true, beq_iff_eq, and_assoc]

/-- A walk of the audit that is in order is in order on every machine. -/
theorem traverse_of_trail {c : Chain α A} {onward backward : Cell α → Option Token}
    {start finish : Option Token} (hword : c.len < wordLimit)
    (h : c.trail onward backward c.len none start = some (finish, c.len)) :
    m.traverse c onward backward start finish = .ok () := by
  have hle : 0 + c.len ≤ c.len := Nat.le_of_eq (Nat.zero_add _)
  rw [traverse, bind_of_eq_ok (m.walk_of_trail hword h hle), Nat.zero_add]
  exact if_pos ⟨rfl, rfl⟩

/-- A walk that is in order on a machine is in order for the audit. -/
theorem trail_of_traverse {c : Chain α A} {onward backward : Cell α → Option Token}
    {start finish : Option Token} (hword : c.len + 1 < wordLimit)
    (h : m.traverse c onward backward start finish = .ok ()) :
    c.trail onward backward c.len none start = some (finish, c.len) := by
  obtain ⟨s, hwalk, hcheck⟩ := bind_eq_ok.1 h
  obtain ⟨n, htrail, hsteps⟩ := m.trail_of_walk hword (Nat.zero_add c.len) hwalk
  split at hcheck
  · rename_i hend
    rw [htrail, hend.1, ← hend.2, hsteps, Nat.zero_add]
  · cases hcheck

/-- A chain that passes the audit passes it on every machine. -/
theorem audit_of_sound {c : Chain α A} (hword : c.len < wordLimit) (h : c.sound = true) :
    m.audit c = .ok () := by
  obtain ⟨hends, hforward, hbackward⟩ := (sound_iff c).1 h
  rw [audit, if_pos hends, bind_of_eq_ok (m.traverse_of_trail hword hforward),
    m.traverse_of_trail hword hbackward]

/-- The audit has one verdict on all machines, on every chain in any state whatsoever whose length is
not the largest word. -/
theorem audit_eq_ok_iff {c : Chain α A} (hword : c.len + 1 < wordLimit) :
    m.audit c = .ok () ↔ c.audit = .ok () := by
  constructor
  · intro h
    rw [audit] at h
    split at h
    · rename_i hends
      obtain ⟨_, hforward, hbackward⟩ := bind_eq_ok.1 h
      exact if_pos ((sound_iff c).2
        ⟨hends, m.trail_of_traverse hword hforward, m.trail_of_traverse hword hbackward⟩)
    · cases h
  · intro h
    rw [Chain.audit] at h
    split at h
    · rename_i hsound
      exact m.audit_of_sound (Nat.lt_of_succ_lt hword) hsound
    · cases h

/-! ### Well-formed chains count exactly -/

section

variable {c : Chain α A} {cells : List (Token × α)}

/-- The length of a well-formed chain is a word. -/
theorem len_lt_of_threads (h : c.Threads cells) : c.len < wordLimit := by
  have hlt := length_lt_of_nodup h.nodup
  rwa [tokensOf, List.length_map, ← h.len] at hlt

/-- A chain that has a cell does not have the length zero. -/
theorem len_pos_of_threads {front back : List (Token × α)} {cell : Token × α}
    (h : c.Threads (front ++ cell :: back)) : 0 < c.len := by
  rw [h.len, List.length_append, List.length_cons]
  omega

/-- A well-formed chain passes the audit on every machine. -/
theorem audit_eq (h : c.Threads cells) : m.audit c = .ok () :=
  m.audit_of_sound (len_lt_of_threads h) h.sound

/-- A mutation that leaves a well-formed chain is concluded alike on every machine. -/
theorem conclude_eq (h : c.Threads cells) (change : Mutation) (answer : β) :
    m.conclude change answer c = c.conclude change answer := by
  rw [conclude, Chain.conclude, m.audit_eq h, h.audit]

/-- An insertion that has linked its cell in counts it and is concluded alike on every machine. -/
theorem grow_conclude_eq {d : Chain α A} (hword : d.len + 1 < wordLimit)
    (h : Chain.Threads { d with len := d.len + 1 } cells) (change : Mutation) (answer : β) :
    (m.grow d >>= m.conclude change answer) = (d.grow >>= Chain.conclude change answer) := by
  rw [m.grow_eq hword, Chain.grow, if_pos hword]
  exact m.conclude_eq h change answer

/-- Prepending counts exactly. -/
theorem prepend_eq (h : c.Threads cells) (item : α) : m.prepend item c = Chain.prepend item c := by
  have h' : c.Threads ([] ++ cells) := h
  rcases h'.splice item with ⟨hstore, -⟩ | ⟨t, a, a', hstore, hlink, hword, hnew⟩
  · rw [prepend, Chain.prepend, hstore]
    rfl
  · rw [lastToken_nil, ← h.head] at hlink
    rw [prepend, Chain.prepend, bind_of_eq_ok hstore, bind_of_eq_ok hstore]
    simp only
    rw [bind_of_eq_ok hlink, bind_of_eq_ok hlink]
    rw [List.nil_append, lastToken_cons, ← h.tail] at hnew
    exact m.grow_conclude_eq (d := ⟨some t, c.tail.or (some t), a', c.len⟩) hword hnew .prepend ()

/-- Appending counts exactly. -/
theorem append_eq (h : c.Threads cells) (item : α) : m.append item c = Chain.append item c := by
  have h' : c.Threads (cells ++ []) := by rwa [List.append_nil]
  rcases h'.splice item with ⟨hstore, -⟩ | ⟨t, a, a', hstore, hlink, hword, hnew⟩
  · rw [append, Chain.append, hstore]
    rfl
  · rw [firstToken_nil, ← h.tail] at hlink
    rw [append, Chain.append, bind_of_eq_ok hstore, bind_of_eq_ok hstore]
    simp only
    rw [bind_of_eq_ok hlink, bind_of_eq_ok hlink]
    rw [firstToken_append, lastToken_concat, ← h.head] at hnew
    exact m.grow_conclude_eq (d := ⟨c.head.or (some t), some t, a', c.len⟩) hword hnew .append ()

/-- Deleting a cell, be it the head or the tail, counts exactly. -/
theorem deleteAt_eq {front back : List (Token × α)} {t : Token} {x : α}
    (h : c.Threads (front ++ (t, x) :: back)) (change : Mutation) :
    m.deleteAt change c (some t) = c.deleteAt change (some t) := by
  obtain ⟨c', hunlink, hc'⟩ := Chain.unlink_spec h
  rw [deleteAt, Chain.deleteAt, m.unlink_eq (len_pos_of_threads h) (len_lt_of_threads h),
    bind_of_eq_ok hunlink, bind_of_eq_ok hunlink]
  exact m.conclude_eq hc' change (some x)

/-- Deleting the head counts exactly. -/
theorem deleteHead_eq (h : c.Threads cells) : m.deleteHead c = Chain.deleteHead c := by
  rw [deleteHead, Chain.deleteHead, h.head]
  cases cells with
  | nil => rfl
  | cons cell rest =>
    rw [← List.nil_append (cell :: rest)] at h
    exact m.deleteAt_eq h .deleteHead

/-- Deleting the tail counts exactly. -/
theorem deleteTail_eq (h : c.Threads cells) : m.deleteTail c = Chain.deleteTail c := by
  rw [deleteTail, Chain.deleteTail, h.tail]
  rcases List.eq_nil_or_concat' cells with rfl | ⟨front, cell, rfl⟩
  · rfl
  · rw [lastToken_concat]
    exact m.deleteAt_eq h .deleteTail

end

/-- Looking up a cell and then counting down a number that is not zero is looking it up. -/
theorem yield_eq (c : Chain α A) {k : Cursor} (hword : k.remaining < wordLimit)
    (position : Option Token) (moved : Cell α → (remaining : Nat) → Cursor) :
    m.yield c k position moved =
      match k.remaining, position with
      | n + 1, some t => (c.cell t).map fun cell => ⟨some cell.item, moved cell n, []⟩
      | _, _ => .ok ⟨none, k, []⟩ := by
  obtain ⟨front, back, remaining⟩ := k
  cases remaining with
  | zero => rfl
  | succ n =>
    cases position with
    | none => rfl
    | some t =>
      rw [yield, if_neg (Nat.succ_ne_zero n)]
      simp only
      cases c.cell t with
      | error fault => rfl
      | ok cell =>
        rw [bind_of_eq_ok rfl, bind_of_eq_ok (m.down_eq n hword)]
        rfl

/-- A cursor with a word of items ahead counts exactly at its front. -/
theorem next_eq (c : Chain α A) {k : Cursor} (hword : k.remaining < wordLimit) :
    m.next c k = Cursor.next c k := m.yield_eq c hword k.front _

/-- A cursor with a word of items ahead counts exactly at its back. -/
theorem nextBack_eq (c : Chain α A) {k : Cursor} (hword : k.remaining < wordLimit) :
    m.nextBack c k = Cursor.nextBack c k := m.yield_eq c hword k.back _

end Counting

end SlotChain

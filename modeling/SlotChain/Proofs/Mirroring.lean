import SlotChain.Chain.Mutation
import SlotChain.Proofs.Layouts
import SlotChain.Proofs.Splicing

/-!
# Chains that mirror each other

A chain has a mirror image: the same cells in the same slots, with `prev` and `next` exchanged in every
cell, and head and tail exchanged in the chain. Whatever the link surgery does to a chain, its twin does
to the mirror image: prepending to the one is appending to the other, and deleting the head of the one is
deleting the tail of the other. No order of the cells is needed for that, and not even a chain in good
order; only that new cells are given the same slots on both sides.
-/

namespace SlotChain

variable {α : Type} {A : Type → Type} [SlotMap A] {β γ β' γ' : Type}

/-! ### Results on both sides -/

/-- Two results run in parallel: both actions are completed with related values, or the same fault stops
both. -/
inductive Parallel (related : β → γ → Prop) : Except Fault β → Except Fault γ → Prop
  /-- Both are completed. -/
  | completed {b : β} {c : γ} (h : related b c) : Parallel related (.ok b) (.ok c)
  /-- Both are stopped. -/
  | stopped (fault : Fault) : Parallel related (.error fault) (.error fault)

namespace Parallel

variable {related : β → γ → Prop} {related' : β' → γ' → Prop} {x : Except Fault β}
  {y : Except Fault γ}

/-- What follows in parallel on parallel results is parallel again. -/
theorem bind (h : Parallel related x y) {f : β → Except Fault β'} {g : γ → Except Fault γ'}
    (hfg : ∀ b c, related b c → Parallel related' (f b) (g c)) :
    Parallel related' (x >>= f) (y >>= g) := by
  cases h with
  | completed h => exact hfg _ _ h
  | stopped fault => exact .stopped fault

/-- What is known of a completed action may be used to relate its value in another way. -/
theorem imp (h : Parallel related x y) {related' : β → γ → Prop}
    (himp : ∀ b c, x = .ok b → related b c → related' b c) : Parallel related' x y := by
  cases h with
  | completed h => exact .completed (himp _ _ rfl h)
  | stopped fault => exact .stopped fault

/-- Parallel results may be rewritten on both sides. -/
theorem map (h : Parallel related x y) {f : β → β'} {g : γ → γ'}
    (hfg : ∀ b c, related b c → related' (f b) (g c)) : Parallel related' (x.map f) (y.map g) := by
  cases h with
  | completed h => exact .completed (hfg _ _ h)
  | stopped fault => exact .stopped fault

/-- Parallel results are equal in what related values have in common. -/
theorem map_eq (h : Parallel related x y) {f : β → β'} {g : γ → β'}
    (hfg : ∀ b c, related b c → f b = g c) : x.map f = y.map g := by
  cases h with
  | completed h => exact congrArg Except.ok (hfg _ _ h)
  | stopped fault => rfl

/-- The two sides may be exchanged. -/
theorem symm (h : Parallel related x y) {converse : γ → β → Prop}
    (hconverse : ∀ b c, related b c → converse c b) : Parallel converse y x := by
  cases h with
  | completed h => exact .completed (hconverse _ _ h)
  | stopped fault => exact .stopped fault

end Parallel

/-- Two completed actions gave related answers and left related states. -/
structure Outcome.Reflects {σ τ : Type} (answers : β → γ → Prop) (states : σ → τ → Prop)
    (o : Outcome σ β) (p : Outcome τ γ) : Prop where
  /-- The answers are related. -/
  answer : answers o.answer p.answer
  /-- The states are related. -/
  state : states o.state p.state

/-! ### The mirror image of a chain -/

/-- The same cell with its neighbours exchanged. -/
def Cell.mirror (cell : Cell α) : Cell α := ⟨cell.next, cell.prev, cell.item⟩

/-- What a change of a cell does to its mirror image. -/
def Cell.reflect (f : Cell α → Cell α) (cell : Cell α) : Cell α := (f cell.mirror).mirror

/-- The same run backwards is linked in the mirror image. -/
theorem Linked.mirror {look look' : Token → Option (Cell α)} {before after : Option Token}
    {cells : List (Token × α)} (h : Linked look before cells after)
    (hlook : ∀ t, look' t = (look t).map Cell.mirror) : Linked look' after cells.reverse before := by
  induction cells generalizing before with
  | nil => trivial
  | cons cell rest ih =>
    obtain ⟨hcell, hrest⟩ := h
    have hlast : lastToken rest.reverse = firstToken rest := by
      rw [lastToken, firstToken, List.getLast?_reverse]
    rw [List.reverse_cons, linked_append]
    refine ⟨ih hrest, ?_, trivial⟩
    rw [hlook, hcell, hlast, firstToken_nil, Option.none_or]
    rfl

namespace Chain

/-- A cell is relinked exactly if its slot is occupied. -/
theorem relink_eq_ite (c : Chain α A) (t : Token) (f : Cell α → Cell α) :
    c.relink t f = if (SlotMap.get? c.arena t.key).isSome then
      .ok { c with arena := SlotMap.modify c.arena t.key f } else .error .staleLink := by
  rw [relink, cell]
  cases SlotMap.get? c.arena t.key with
  | none => rfl
  | some cell => rfl

/-- Two cells are relinked exactly if both slots are occupied. -/
theorem relink_relink_eq_ite (c : Chain α A) (s t : Token) (f g : Cell α → Cell α) :
    (c.relink s f >>= fun c => c.relink t g) =
      if (SlotMap.get? c.arena s.key).isSome ∧ (SlotMap.get? c.arena t.key).isSome then
        .ok { c with arena := SlotMap.modify (SlotMap.modify c.arena s.key f) t.key g }
      else .error .staleLink := by
  have hslot : (SlotMap.get? (SlotMap.modify c.arena s.key f) t.key).isSome =
      (SlotMap.get? c.arena t.key).isSome := by
    rw [SlotMap.get?_modify]
    split
    · exact Option.isSome_map
    · rfl
  rw [relink_eq_ite]
  by_cases hs : (SlotMap.get? c.arena s.key).isSome
  · rw [if_pos hs, bind_of_eq_ok rfl, relink_eq_ite]
    simp only [hslot, hs, true_and]
  · rw [if_neg hs, if_neg fun h => hs h.1]
    rfl

/-- A chain is the mirror image of another. -/
structure Mirrors (c d : Chain α A) : Prop where
  /-- Its head is the tail of the other. -/
  head : d.head = c.tail
  /-- Its tail is the head of the other. -/
  tail : d.tail = c.head
  /-- It has as many cells. -/
  len : d.len = c.len
  /-- The same slots hold the same cells, with `prev` and `next` exchanged. -/
  cells : ∀ k, SlotMap.get? d.arena k = (SlotMap.get? c.arena k).map Cell.mirror

namespace Mirrors

variable {c d : Chain α A}

/-- The image of the image is the chain itself. -/
theorem symm (h : c.Mirrors d) : d.Mirrors c where
  head := h.tail.symm
  tail := h.head.symm
  len := h.len.symm
  cells k := by
    rw [h.cells, Option.map_map]
    exact Option.map_id'.symm

/-- Empty chains are images of each other. -/
theorem of_holds_nil (hc : c.Holds []) (hd : d.Holds []) : c.Mirrors d := by
  have hthreads : ∀ {e : Chain α A}, e.Holds [] → e.Threads [] := by
    rintro e ⟨cells, hcells, hitems⟩
    rwa [List.map_eq_nil_iff.1 hitems] at hcells
  have hvacant : ∀ {e : Chain α A}, e.Holds [] → ∀ k, SlotMap.get? e.arena k = none := by
    intro e he k
    refine Option.not_isSome_iff_eq_none.1 fun hsome => ?_
    obtain ⟨t, ht, -⟩ := (hthreads he).occupied k hsome
    cases ht
  constructor
  · rw [(hthreads hc).tail, (hthreads hd).head, firstToken_nil, lastToken_nil]
  · rw [(hthreads hc).head, (hthreads hd).tail, firstToken_nil, lastToken_nil]
  · rw [hc.len_eq, hd.len_eq]
  · intro k
    rw [hvacant hc, hvacant hd, Option.map_none]

/-- The same slots are occupied. -/
theorem isSome_eq (h : c.Mirrors d) (k : Nat) :
    (SlotMap.get? d.arena k).isSome = (SlotMap.get? c.arena k).isSome := by
  rw [h.cells, Option.isSome_map]

/-- The image is threaded through the same run backwards. -/
theorem threads (h : c.Mirrors d) {cells : List (Token × α)} (hc : c.Threads cells) :
    d.Threads cells.reverse where
  nodup := by
    rw [tokensOf, List.map_reverse]
    exact List.nodup_reverse.2 hc.nodup
  occupied k hk := by
    rw [h.isSome_eq] at hk
    obtain ⟨t, ht, hkey⟩ := hc.occupied k hk
    refine ⟨t, ?_, hkey⟩
    rw [tokensOf, List.map_reverse]
    exact List.mem_reverse.2 ht
  linked := hc.linked.mirror fun t => h.cells t.key
  head := by rw [h.head, hc.tail, firstToken, lastToken, List.head?_reverse]
  tail := by rw [h.tail, hc.head, firstToken, lastToken, List.getLast?_reverse]
  len := by rw [h.len, hc.len, List.length_reverse]

/-- The image holds the items in reverse. -/
theorem holds (h : c.Mirrors d) {xs : List α} (hc : c.Holds xs) : d.Holds xs.reverse := by
  obtain ⟨cells, hcells, rfl⟩ := hc
  exact ⟨cells.reverse, h.threads hcells, List.map_reverse⟩

/-- As many slots are occupied. -/
theorem size_eq (h : c.Mirrors d) : SlotMap.size d.arena = SlotMap.size c.arena := by
  have hperm : (SlotMap.keys d.arena).Perm (SlotMap.keys c.arena) := by
    rw [List.perm_ext_iff_of_nodup (SlotMap.nodup_keys _) (SlotMap.nodup_keys _)]
    intro k
    rw [SlotMap.mem_keys, SlotMap.mem_keys, h.isSome_eq]
  rw [SlotMap.size_eq, SlotMap.size_eq, hperm.length_eq]

/-- A token names a cell and its image. -/
theorem cell (h : c.Mirrors d) (t : Token) :
    Parallel (fun p q => q = p.mirror) (c.cell t) (d.cell t) := by
  rw [Chain.cell, Chain.cell, h.cells]
  cases SlotMap.get? c.arena t.key with
  | none => exact .stopped _
  | some cell => exact .completed rfl

/-- A walk in one chain is the walk along the exchanged links in the other. -/
theorem trail_eq (h : c.Mirrors d) (onward backward : Cell α → Option Token) (budget : Nat)
    (before cursor : Option Token) :
    d.trail (onward ∘ Cell.mirror) (backward ∘ Cell.mirror) budget before cursor =
      c.trail onward backward budget before cursor := by
  induction budget generalizing before cursor with
  | zero => cases cursor <;> rfl
  | succ budget ih =>
    cases cursor with
    | none => rfl
    | some t =>
      rw [trail, trail, h.cells]
      cases SlotMap.get? c.arena t.key with
      | none => rfl
      | some cell =>
        have hback : (backward ∘ Cell.mirror) cell.mirror = backward cell := rfl
        have hon : (onward ∘ Cell.mirror) cell.mirror = onward cell := rfl
        simp only [Option.map_some, hback, hon, ih]

/-- An end is open exactly if the exchanged end is. -/
theorem openEnd_eq (h : c.Mirrors d) (outward : Cell α → Option Token) (e : Option Token) :
    d.openEnd (outward ∘ Cell.mirror) e = c.openEnd outward e := by
  cases e with
  | none => rfl
  | some t =>
    rw [openEnd, openEnd, h.cells, Option.map_map]
    rfl

/-- A chain passes the audit exactly if its image does. -/
theorem sound_eq (h : c.Mirrors d) : d.sound = c.sound := by
  have hforward : d.trail Cell.next Cell.prev c.len none c.tail =
      c.trail Cell.prev Cell.next c.len none c.tail := h.trail_eq Cell.prev Cell.next c.len none c.tail
  have hbackward : d.trail Cell.prev Cell.next c.len none c.head =
      c.trail Cell.next Cell.prev c.len none c.head := h.trail_eq Cell.next Cell.prev c.len none c.head
  have hhead : d.openEnd Cell.prev c.tail = c.openEnd Cell.next c.tail :=
    h.openEnd_eq Cell.next c.tail
  have htail : d.openEnd Cell.next c.head = c.openEnd Cell.prev c.head :=
    h.openEnd_eq Cell.prev c.head
  rw [Bool.eq_iff_iff]
  simp only [sound, h.head, h.tail, h.len, h.size_eq, hforward, hbackward, hhead, htail,
    Bool.and_eq_true, beq_iff_eq, Bool.or_eq_true]
  grind

/-- The audit comes to the same verdict on both sides. -/
theorem audit_eq (h : c.Mirrors d) : d.audit = c.audit := by
  rw [audit, audit, h.sound_eq]

end Mirrors

/-! ### Splicing on both sides -/

variable [BlindSlotMap A]

/-- A chain is the mirror image of another, and will stay so: both choose the same slots next. -/
structure Twins (c d : Chain α A) : Prop extends c.Mirrors d where
  /-- The layouts of both arenas are the same. -/
  layout : BlindSlotMap.layout d.arena = BlindSlotMap.layout c.arena

namespace Twins

variable {c d : Chain α A}

/-- The image of the image is the chain itself. -/
theorem symm (h : c.Twins d) : d.Twins c where
  toMirrors := h.toMirrors.symm
  layout := h.layout.symm

/-- The empty chain is its own image. -/
theorem empty : (Chain.empty : Chain α A).Twins .empty where
  toMirrors := .of_holds_nil holds_empty holds_empty
  layout := rfl

/-- Both sides are cleared alike. -/
theorem clear (h : c.Twins d) : c.clear.Twins d.clear where
  toMirrors := .of_holds_nil (holds_clear c) (holds_clear d)
  layout := BlindSlotMap.layout_clear h.layout

/-- New cells are stored in the same slot. -/
theorem store (h : c.Twins d) (item : α) :
    Parallel (fun p q => q.1 = p.1 ∧ p.2.Twins q.2) (c.store item) (d.store item) := by
  have hkeys := BlindSlotMap.layout_insert (A := A) ⟨none, none, item⟩ ⟨none, none, item⟩ h.layout
  unfold Chain.store
  cases hc : SlotMap.insert c.arena (⟨none, none, item⟩ : Cell α) with
  | none =>
    rw [hc, Option.map_none, Option.map_eq_none_iff] at hkeys
    rw [hkeys]
    exact .stopped _
  | some stored =>
    obtain ⟨k, a⟩ := stored
    rw [hc, Option.map_some, Option.map_eq_some_iff] at hkeys
    obtain ⟨⟨k', b⟩, hd, hkey⟩ := hkeys
    obtain ⟨hk, hlayout⟩ := Prod.mk.inj hkey
    obtain rfl : k' = k := hk
    rw [hd]
    simp only
    cases Token.ofKey k' with
    | error fault => exact .stopped fault
    | ok t =>
      refine .completed ⟨rfl, ?_⟩
      exact
        { h with
          cells := fun j => by
            rw [SlotMap.get?_insert hc, SlotMap.get?_insert hd, h.cells]
            split
            · rfl
            · rfl
          layout := hlayout }

/-- A cell and its image are changed alike. -/
theorem modify (h : c.Twins d) (f : Cell α → Cell α) (k : Nat) :
    Twins { c with arena := SlotMap.modify c.arena k f }
      { d with arena := SlotMap.modify d.arena k (Cell.reflect f) } :=
  { h with
    cells := fun j => by
      rw [SlotMap.get?_modify, SlotMap.get?_modify, h.cells]
      split
      · rw [Option.map_map, Option.map_map]
        rfl
      · rfl
    layout := by rw [BlindSlotMap.layout_modify, BlindSlotMap.layout_modify, h.layout] }

/-- A cell and its image are relinked alike. -/
theorem relink (h : c.Twins d) (t : Token) (f : Cell α → Cell α) :
    Parallel Twins (c.relink t f) (d.relink t (Cell.reflect f)) := by
  rw [relink_eq_ite, relink_eq_ite, h.isSome_eq]
  split
  · exact .completed (h.modify f t.key)
  · exact .stopped _

/-- A neighbour and its image are relinked alike. -/
theorem relinkNeighbour (h : c.Twins d) (f : Cell α → Cell α) (neighbour : Option Token) :
    Parallel Twins (c.relinkNeighbour f neighbour)
      (d.relinkNeighbour (Cell.reflect f) neighbour) := by
  cases neighbour with
  | none => exact .completed h
  | some t => exact h.relink t f

/-- Two changes that do not get in each other's way may be made in either order. -/
theorem modify_comm (h : c.Twins d) {f g : Cell α → Cell α} (hcomm : ∀ cell, f (g cell) = g (f cell))
    (j k : Nat) :
    Twins { c with arena := SlotMap.modify (SlotMap.modify c.arena j f) k g }
      { d with arena :=
        SlotMap.modify (SlotMap.modify d.arena k (Cell.reflect g)) j (Cell.reflect f) } := by
  have hmirror := (h.modify g k).modify f j
  exact
    { hmirror with
      cells := fun i => by
        rw [hmirror.cells]
        simp only [SlotMap.get?_modify]
        split
        · split
          · simp only [Option.map_map]
            exact congrArg (fun e => Option.map (Cell.mirror ∘ e) _) (funext hcomm)
          · rfl
        · rfl
      layout := by
        simp only [BlindSlotMap.layout_modify, h.layout] }

/-- Both neighbours of a cell are relinked on both sides. The one that comes first on the one side comes
second on the other. -/
theorem relinkNeighbours (h : c.Twins d) {f g : Cell α → Cell α}
    (hcomm : ∀ cell, f (g cell) = g (f cell)) (prev next : Option Token) :
    Parallel Twins (c.relinkNeighbour f prev >>= fun c => c.relinkNeighbour g next)
      (d.relinkNeighbour (Cell.reflect g) next >>= fun d =>
        d.relinkNeighbour (Cell.reflect f) prev) := by
  cases prev with
  | none =>
    have hnext := h.relinkNeighbour g next
    rw [← bind_pure (d.relinkNeighbour (Cell.reflect g) next)] at hnext
    exact hnext
  | some s =>
    cases next with
    | none =>
      have hprev := h.relinkNeighbour f (some s)
      rw [← bind_pure (c.relinkNeighbour f (some s))] at hprev
      exact hprev
    | some t =>
      simp only [Chain.relinkNeighbour, relink_relink_eq_ite, h.isSome_eq]
      by_cases hslots : (SlotMap.get? c.arena s.key).isSome ∧ (SlotMap.get? c.arena t.key).isSome
      · rw [if_pos hslots, if_pos hslots.symm]
        exact .completed (h.modify_comm hcomm s.key t.key)
      · rw [if_neg hslots, if_neg fun h => hslots h.symm]
        exact .stopped _

/-- A cell is linked between two neighbours on both sides. -/
theorem linkBetween (h : c.Twins d) (t : Token) (prev next : Option Token) :
    Parallel Twins (c.linkBetween t prev next) (d.linkBetween t next prev) := by
  have hneighbours := h.relinkNeighbours (f := fun cell => { cell with next := some t })
    (g := fun cell => { cell with prev := some t }) (fun _ => rfl) prev next
  have hself := hneighbours.bind fun _ _ h => h.relink t fun cell => { cell with prev, next }
  rw [bind_assoc, bind_assoc] at hself
  exact hself

/-- Lengths grow alike. -/
theorem grow (h : c.Twins d) : Parallel Twins c.grow d.grow := by
  rw [Chain.grow, Chain.grow, h.len]
  split
  · exact .completed { h with len := rfl }
  · exact .stopped _

/-- Lengths shrink alike. -/
theorem shrink (h : c.Twins d) : Parallel Twins c.shrink d.shrink := by
  rw [Chain.shrink, Chain.shrink, h.len]
  cases c.len with
  | zero => exact .stopped _
  | succ n => exact .completed { h with len := rfl }

/-- A slot is vacated on both sides, and the ends are moved past its cell. -/
theorem release (h : c.Twins d) (t : Token) (prev next : Option Token) :
    Twins
      { c with
        arena := SlotMap.erase c.arena t.key
        head := if c.head = some t then next else c.head
        tail := if c.tail = some t then prev else c.tail }
      { d with
        arena := SlotMap.erase d.arena t.key
        head := if d.head = some t then prev else d.head
        tail := if d.tail = some t then next else d.tail } where
  head := by rw [h.head]
  tail := by rw [h.tail]
  len := h.len
  cells k := by
    rw [SlotMap.get?_erase, SlotMap.get?_erase, h.cells]
    split
    · rfl
    · rfl
  layout := BlindSlotMap.layout_erase t.key h.layout

/-- A cell is taken out on both sides. -/
theorem unlink (h : c.Twins d) (t : Token) :
    Parallel (fun p q => q.1 = p.1 ∧ p.2.Twins q.2) (c.unlink t) (d.unlink t) := by
  refine (h.cell t).bind fun cell _ hcell => ?_
  subst hcell
  have hreleased := h.release t cell.prev cell.next
  have hneighbours := hreleased.relinkNeighbours (f := fun p => { p with next := cell.next })
    (g := fun n => { n with prev := cell.prev }) (fun _ => rfl) cell.prev cell.next
  have hshrunk : ∀ c d : Chain α A, c.Twins d →
      Parallel (fun p q => q.1 = p.1 ∧ p.2.Twins q.2) (c.shrink >>= fun c => pure (cell.item, c))
        (d.shrink >>= fun d => pure (cell.item, d)) :=
    fun _ _ h => h.shrink.bind fun _ _ h => .completed ⟨rfl, h⟩
  have hdone := hneighbours.bind hshrunk
  rw [bind_assoc, bind_assoc] at hdone
  exact hdone

/-! ### Mutations on both sides -/

/-- Mutations are concluded alike, whatever their names. -/
theorem conclude (h : c.Twins d) (change change' : Mutation) (answer : β) :
    Parallel (Outcome.Reflects Eq Twins) (c.conclude change answer) (d.conclude change' answer) := by
  rw [Chain.conclude, Chain.conclude, h.audit_eq]
  cases c.audit with
  | error fault => exact .stopped fault
  | ok _ => exact .completed ⟨rfl, h⟩

/-- Prepending on one side is appending on the other. -/
theorem prepend (h : c.Twins d) (item : α) :
    Parallel (Outcome.Reflects Eq Twins) (Chain.prepend item c) (Chain.append item d) := by
  refine (h.store item).bind fun stored stored' hstored => ?_
  obtain ⟨s, c'⟩ := stored
  obtain ⟨t, d'⟩ := stored'
  obtain ⟨rfl, hstored⟩ := hstored
  have hlinked : Parallel Twins (c'.linkBetween t none c'.head) (d'.linkBetween t d'.tail none) := by
    rw [hstored.tail]
    exact hstored.linkBetween t none c'.head
  refine hlinked.bind fun c' d' hlinked => ?_
  have hends : Twins { c' with head := some t, tail := c'.tail.or (some t) }
      { d' with tail := some t, head := d'.head.or (some t) } :=
    { hlinked with
      head := by rw [hlinked.head]
      tail := rfl }
  exact hends.grow.bind fun c' d' hgrown => hgrown.conclude .prepend .append ()

/-- Appending on one side is prepending on the other. -/
theorem append (h : c.Twins d) (item : α) :
    Parallel (Outcome.Reflects Eq Twins) (Chain.append item c) (Chain.prepend item d) :=
  (h.symm.prepend item).symm fun _ _ houtcome => ⟨houtcome.answer.symm, houtcome.state.symm⟩

/-- Deleting the cell that a token names is the same on both sides. -/
theorem deleteAt (h : c.Twins d) (change change' : Mutation) (e : Option Token) :
    Parallel (Outcome.Reflects Eq Twins) (c.deleteAt change e) (d.deleteAt change' e) := by
  cases e with
  | none => exact .completed ⟨rfl, h⟩
  | some t =>
    refine (h.unlink t).bind fun unlinked unlinked' hunlinked => ?_
    obtain ⟨y, c'⟩ := unlinked
    obtain ⟨x, d'⟩ := unlinked'
    obtain ⟨rfl, hunlinked⟩ := hunlinked
    exact hunlinked.conclude change change' (some x)

/-- Deleting the head on one side is deleting the tail on the other. -/
theorem deleteHead (h : c.Twins d) :
    Parallel (Outcome.Reflects Eq Twins) (Chain.deleteHead c) (Chain.deleteTail d) := by
  rw [Chain.deleteHead, Chain.deleteTail, h.tail]
  exact h.deleteAt .deleteHead .deleteTail c.head

/-- Deleting the tail on one side is deleting the head on the other. -/
theorem deleteTail (h : c.Twins d) :
    Parallel (Outcome.Reflects Eq Twins) (Chain.deleteTail c) (Chain.deleteHead d) := by
  rw [Chain.deleteHead, Chain.deleteTail, h.head]
  exact h.deleteAt .deleteTail .deleteHead c.tail

end Twins

end Chain

end SlotChain

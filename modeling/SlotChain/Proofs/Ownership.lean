import SlotChain.Proofs.Balance

/-!
# Who owns a shared list

Two live handles denote the same list if and only if they go back to one creation by sharing. Every list
counts exactly the handles that denote it, so a list is gone as soon as no handle does, and it can be
taken out through the last handle and through no other. This survives every deed in every order, be it
that a handle is given the list of another while it denotes one, or even its own.
-/

namespace SlotChain

variable {α : Type} {A : Type → Type} [SlotMap A] [Item α]

/-! ### Where handles come from -/

/-- Something done with handles: a step, or a first handle for an existing list. -/
inductive Deed (α : Type) (A : Type → Type) [SlotMap A] [Item α] where
  /-- A step with a handle. -/
  | step (s : HandleStep α)
  /-- Let a handle denote an existing chain. -/
  | adopt (handle : String) (c : Chain α A) (hc : c.Reachable)

/-- Do something with handles. -/
def Deed.perform (h : Handles α A) : Deed α A → Handles α A × Except Fault (HandleAnswer α A)
  | .step s => h.perform s
  | .adopt handle c _ => (h.adopt handle c, .ok .done)

/-- Where handles come from after a step of the given number: those that exist, each with the number of the
deed that made its list. What was not done changes nothing. -/
def HandleStep.origins (made : Nat) (origin : String → Option Nat) :
    HandleStep α → Except Fault (HandleAnswer α A) → String → Option Nat
  | .create handle _, .ok .done => Function.update origin handle (some made)
  | .collect handle _, .ok .done => Function.update origin handle (some made)
  | .share handle target, .ok .done => Function.update origin target (origin handle)
  | .drop handle, .ok .done => Function.update origin handle none
  | .reclaim handle, .ok (.reclaimed _) => Function.update origin handle none
  | _, _ => origin

/-- Where handles come from after a deed of the given number. -/
def Deed.origins (made : Nat) (origin : String → Option Nat) :
    Deed α A → Except Fault (HandleAnswer α A) → String → Option Nat
  | .step s, answer => s.origins made origin answer
  | .adopt handle _ _, _ => Function.update origin handle (some made)

/-- Handles with their past. -/
structure History (α : Type) (A : Type → Type) [SlotMap A] [Item α] where
  /-- The handles and the lists. -/
  handles : Handles α A
  /-- The number of the deed that created the list of a handle, for the handles that exist. -/
  origin : String → Option Nat
  /-- What each deed was answered. -/
  answers : List (Except Fault (HandleAnswer α A))

namespace History

/-- Before any deed. -/
def start : History α A := ⟨.empty, fun _ => none, []⟩

/-- Do something with the handles. -/
def after (past : History α A) (deed : Deed α A) : History α A :=
  let performed := deed.perform past.handles
  ⟨performed.1, deed.origins past.answers.length past.origin performed.2,
    past.answers ++ [performed.2]⟩

/-- The history that deeds one after the other make. -/
def of (deeds : List (Deed α A)) : History α A := deeds.foldl after start

/-- Handles and lists are in good order, and a handle denotes what it was given by the deed that it goes
back to. -/
structure Sound (past : History α A) : Prop where
  /-- Each list has the handles that it counts. -/
  valid : past.handles.Valid
  /-- Exactly the handles that exist go back to a deed. -/
  exists_iff : ∀ a, past.handles.names.find? a = none ↔ past.origin a = none
  /-- Handles denote the same list if and only if they go back to the same deed. -/
  same_iff : ∀ a b,
    past.handles.names.find? a = past.handles.names.find? b ↔ past.origin a = past.origin b
  /-- Every handle goes back to a deed that has been done. -/
  recent : ∀ a k, past.origin a = some k → k < past.answers.length

namespace Sound

variable {past : History α A} {h : Handles α A} {answer : Except Fault (HandleAnswer α A)}

/-- Nothing new comes from a deed that leaves all handles what they were. -/
theorem keep (hs : past.Sound) (hv : h.Valid) (hnames : h.names = past.handles.names) :
    Sound ⟨h, past.origin, past.answers ++ [answer]⟩ where
  valid := hv
  exists_iff a := by
    rw [hnames]
    exact hs.exists_iff a
  same_iff a b := by
    rw [hnames]
    exact hs.same_iff a b
  recent a k hk := by
    rw [List.length_append]
    exact Nat.lt_add_right 1 (hs.recent a k hk)

/-- One handle may change what it denotes and where it goes back to, if the two change alike. -/
theorem change (hs : past.Sound) (hv : h.Valid) {handle : String} {number made : Option Nat}
    (hnames : h.names.find? = Function.update past.handles.names.find? handle number)
    (hnone : number = none ↔ made = none)
    (hsame : ∀ a, past.handles.names.find? a = number ↔ past.origin a = made)
    (hrecent : ∀ k, made = some k → k ≤ past.answers.length) :
    Sound ⟨h, Function.update past.origin handle made, past.answers ++ [answer]⟩ where
  valid := hv
  exists_iff a := by
    rw [hnames]
    simp only [Function.update_apply]
    split
    · exact hnone
    · exact hs.exists_iff a
  same_iff a b := by
    rw [hnames]
    simp only [Function.update_apply]
    -- Either of the two may be the one that changes, or both.
    split <;> split
    · exact iff_of_true rfl rfl
    · rw [eq_comm, hsame, eq_comm]
    · exact hsame a
    · exact hs.same_iff a b
  recent a k hk := by
    rw [List.length_append, List.length_singleton]
    simp only [Function.update_apply] at hk
    split at hk
    · exact Nat.lt_succ_of_le (hrecent k hk)
    · exact Nat.lt_add_right 1 (hs.recent a k hk)

/-- No handle goes back to a deed that is yet to be done. -/
theorem origin_ne_next (hs : past.Sound) (a : String) :
    past.origin a ≠ some past.answers.length :=
  fun heq => absurd (hs.recent a _ heq) (Nat.lt_irrefl _)

/-- No handle denotes a list that is yet to come. -/
theorem number_ne_next (hs : past.Sound) (a : String) :
    past.handles.names.find? a ≠ some past.handles.nextList := by
  intro heq
  obtain ⟨shared, hfind⟩ := hs.valid.find?_of_name heq
  exact absurd (hs.valid.numbered _ shared hfind) (Nat.lt_irrefl _)

/-- The first handle of a list goes back to the deed that made it. -/
theorem adopt (hs : past.Sound) (handle : String) {c : Chain α A} (hc : c.Reachable) :
    Sound ⟨past.handles.adopt handle c, Function.update past.origin handle (some past.answers.length),
      past.answers ++ [answer]⟩ := by
  have hnames : (past.handles.adopt handle c).names.find? =
      Function.update past.handles.names.find? handle (some past.handles.nextList) := by
    rw [Handles.names_adopt, Table.find?_put_eq_update]
  refine hs.change (hs.valid.adopt handle hc) hnames ?_ ?_ ?_
  · exact iff_of_false (Option.some_ne_none _) (Option.some_ne_none _)
  · exact fun a => iff_of_false (hs.number_ne_next a) (hs.origin_ne_next a)
  · exact fun k hk => (Option.some.inj hk).ge

/-- A handle that is given up goes back to nothing. -/
theorem forget (hs : past.Sound) (hv : h.Valid) {handle : String}
    (hnames : h.names = past.handles.names.erase handle) :
    Sound ⟨h, Function.update past.origin handle none, past.answers ++ [answer]⟩ := by
  have hfind : h.names.find? = Function.update past.handles.names.find? handle none := by
    rw [hnames, Table.find?_erase_eq_update]
  exact hs.change hv hfind Iff.rfl hs.exists_iff fun _ hk => nomatch hk

/-- A handle that is given the list of another goes back to where that does. -/
theorem share (hs : past.Sound) (hv : h.Valid) {handle target : String} {n : Nat}
    (hname : past.handles.names.find? handle = some n)
    (hnames : h.names = past.handles.names.put target n) :
    Sound ⟨h, Function.update past.origin target (past.origin handle), past.answers ++ [answer]⟩ := by
  have hfind : h.names.find? =
      Function.update past.handles.names.find? target (past.handles.names.find? handle) := by
    rw [hnames, Table.find?_put_eq_update, hname]
  exact hs.change hv hfind (hs.exists_iff handle) (hs.same_iff · handle) fun k hk =>
    (hs.recent handle k hk).le

/-- Every step of a handle keeps the history sound. -/
theorem step (hs : past.Sound) (s : HandleStep α) : (past.after (.step s)).Sound := by
  have hv := hs.valid.perform s
  rw [after]
  simp only [Deed.perform, Deed.origins]
  cases s with
  | create handle capacity =>
    rw [Handles.perform]
    cases hbuild : Chain.withCapacity (α := α) (A := A) capacity with
    | error fault => exact hs.keep hs.valid rfl
    | ok c => exact hs.adopt handle (Chain.Reachable.withCapacity hbuild)
  | collect handle items =>
    rw [Handles.perform]
    cases hbuild : (Chain.ofList (A := A) items).map Outcome.state with
    | error fault => exact hs.keep hs.valid rfl
    | ok c => exact hs.adopt handle (Chain.Reachable.ofList hbuild)
  | share handle target =>
    rw [Handles.perform] at hv ⊢
    cases hname : past.handles.names.find? handle with
    | none => exact hs.keep hs.valid rfl
    | some n =>
      simp only [hname] at hv
      exact hs.share hv hname (by rw [Handles.names_bindHandle, Handles.names_retain])
  | drop handle =>
    rw [Handles.perform] at hv ⊢
    cases hname : past.handles.names.find? handle with
    | none => exact hs.keep hs.valid rfl
    | some n =>
      simp only [hname] at hv
      exact hs.forget hv (by rw [Handles.names_release])
  | on handle step =>
    have hnames : (past.handles.perform (.on handle step)).1.names = past.handles.names := by
      rw [Handles.perform_on_fst, Handles.names_exclusive]
    exact hs.keep hv hnames
  | «section» handle steps =>
    have hnames : (past.handles.perform (.section handle steps)).1.names = past.handles.names := by
      rw [Handles.perform_section_fst, Handles.names_exclusive]
    exact hs.keep hv hnames
  | reclaim handle =>
    rw [Handles.perform_reclaim] at hv ⊢
    cases hname : past.handles.names.find? handle with
    | none =>
      rw [Handles.reclaim_none hname]
      exact hs.keep hs.valid rfl
    | some n =>
      obtain ⟨shared, hfind⟩ := hs.valid.find?_of_name hname
      rw [Handles.reclaim_eq hname hfind] at hv ⊢
      by_cases hlast : shared.handles ≤ 1
      · rw [if_pos hlast] at hv ⊢
        exact hs.forget hv (by rw [Handles.names_release])
      · rw [if_neg hlast]
        exact hs.keep hs.valid rfl

end Sound

/-- Every history is sound. -/
theorem sound_of (deeds : List (Deed α A)) : (of deeds).Sound := by
  -- The deeds are taken from the front, so the induction is over what may come after any sound past.
  have hafter : ∀ past : History α A, past.Sound → (deeds.foldl after past).Sound := by
    induction deeds with
    | nil => exact fun _ hs => hs
    | cons deed rest ih =>
      intro past hs
      refine ih (past.after deed) ?_
      cases deed with
      | step s => exact hs.step s
      | adopt handle c hc => exact hs.adopt handle hc
  exact hafter start ⟨.empty, fun _ => Iff.rfl, fun _ _ => Iff.rfl, fun _ _ h => nomatch h⟩

/-- What is left when a list has been taken out through a handle. -/
structure TakenOut (h : Handles α A) (a : String) (h' : Handles α A) : Prop where
  /-- No handle denotes the list any more. -/
  unnamed : ∀ b, h'.names.find? b ≠ h.names.find? a
  /-- All other handles denote what they did. -/
  names : ∀ b, h'.names.find? b = if b = a then none else h.names.find? b
  /-- All other lists are what they were, with the same counts. -/
  lists : ∀ n, h'.lists.find? n = if h.names.find? a = some n then none else h.lists.find? n

namespace Sound

variable {past : History α A}

/-- Handles of one list have one origin. -/
theorem mem_owners_iff (hs : past.Sound) {a : String} {n : Nat}
    (hname : past.handles.names.find? a = some n) (b : String) :
    b ∈ past.handles.owners n ↔ past.origin b = past.origin a := by
  rw [Handles.owners, Table.mem_keysOf, ← hname]
  exact hs.same_iff b a

/-- A section is seen through the handles of one origin. -/
theorem seen (hs : past.Sound) {a : String} {c : Chain α A}
    (hlist : past.handles.list? a = some c) (steps : List (ListStep α)) (b : String) :
    (past.handles.exclusive a steps).1.list? b =
      if past.origin b = past.origin a then some (ListStep.performAll steps c).1
      else past.handles.list? b := by
  obtain ⟨n, shared, hname, hfind, rfl⟩ := Handles.list?_eq_some_iff.1 hlist
  have hiff : past.handles.names.find? b = some n ↔ past.origin b = past.origin a := by
    rw [← hname]
    exact hs.same_iff b a
  rw [Handles.exclusive_eq hname hfind, Handles.list?_replace hfind, if_congr hiff rfl rfl]

/-- A handle that shares its origin with no other takes its list out. -/
theorem last (hs : past.Sound) {a : String} {c : Chain α A}
    (hlist : past.handles.list? a = some c) (honly : ∀ b, past.origin b = past.origin a → b = a) :
    ∃ h, past.handles.reclaim a = (h, .reclaimed c) ∧ c.Reachable ∧ (∃ xs, c.Intact xs) ∧
      TakenOut past.handles a h := by
  obtain ⟨n, shared, hname, hfind, rfl⟩ := Handles.list?_eq_some_iff.1 hlist
  have howners : past.handles.owners n = {a} := by
    ext b
    rw [hs.mem_owners_iff hname, Finset.mem_singleton]
    exact ⟨honly b, fun heq => heq ▸ rfl⟩
  have hone : shared.handles ≤ 1 := by
    rw [hs.valid.handles_eq hfind, howners, Finset.card_singleton]
  have hreachable := (hs.valid.kept n shared hfind).reachable
  obtain ⟨xs, hxs⟩ := hreachable.holds
  have hrelease := Handles.release_eq_erase
    (h := { past.handles with names := past.handles.names.erase a }) hfind hone
  have hreclaim := Handles.reclaim_eq hname hfind
  rw [if_pos hone, hrelease] at hreclaim
  have hnames : ∀ b, (past.handles.names.erase a).find? b =
      if b = a then none else past.handles.names.find? b := past.handles.names.find?_erase a
  refine ⟨_, hreclaim, hreachable, ⟨xs, hxs.intact⟩, fun b hb => ?_, hnames, fun m => ?_⟩
  · dsimp only at hb
    rw [hnames, hname] at hb
    split at hb
    · cases hb
    · rename_i hne
      exact hne (honly b ((hs.same_iff b a).1 (hb.trans hname.symm)))
  · rw [hname, Table.find?_erase]
    by_cases heq : m = n
    · rw [if_pos heq, if_pos (congrArg some heq.symm)]
    · rw [if_neg heq, if_neg fun h => heq (Option.some.inj h).symm]

/-- A handle that shares its origin with another leaves all as it is. -/
theorem shared (hs : past.Sound) {a b : String} (hne : a ≠ b) (hlive : (past.origin a).isSome)
    (hb : past.origin b = past.origin a) :
    past.handles.reclaim a = (past.handles, .stillShared) := by
  cases hname : past.handles.names.find? a with
  | none =>
    rw [(hs.exists_iff a).1 hname] at hlive
    cases hlive
  | some n =>
    obtain ⟨shared, hfind⟩ := hs.valid.find?_of_name hname
    have hcard : 1 < (past.handles.owners n).card :=
      Finset.one_lt_card.2 ⟨a, (hs.mem_owners_iff hname a).2 rfl, b,
        (hs.mem_owners_iff hname b).2 hb, hne⟩
    rw [Handles.reclaim_eq hname hfind, if_neg]
    rw [hs.valid.handles_eq hfind]
    exact Nat.not_le_of_lt hcard

end Sound

end History

end SlotChain

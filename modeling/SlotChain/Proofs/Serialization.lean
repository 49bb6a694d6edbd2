import SlotChain.Proofs.Ownership
import SlotChain.Proofs.Sections

/-!
# One order for all handles of a list

Whatever is asked of a list through its handles is asked in turns, one after the other, whichever handle
each comes through. The answers are those of one plain sequence that takes the turns in this order, and
between the turns the list rests, whatever else is done with handles and other lists. So what goes into the
list through some handles and what comes out of it through others add up, and a list that is used as a
queue hands its items out in the order in which they came.
-/

namespace SlotChain

variable {α : Type} {A : Type → Type}

/-! ### A list that is left alone -/

namespace Handles

/-- The list of a number is as it was, if it is still there, and if it was not there it still is not. -/
structure Rests (n : Nat) (h h' : Handles α A) : Prop where
  /-- The number is not given to another list. -/
  next_le : h.nextList ≤ h'.nextList
  /-- What is there was there before. -/
  same : ∀ shared', h'.lists.find? n = some shared' →
    ∃ shared, h.lists.find? n = some shared ∧ shared'.list = shared.list

namespace Rests

variable {n : Nat} {h h' h'' : Handles α A}

theorem refl (n : Nat) (h : Handles α A) : h.Rests n h :=
  ⟨Nat.le_refl _, fun shared hfind => ⟨shared, hfind, rfl⟩⟩

theorem trans (h₁ : h.Rests n h') (h₂ : h'.Rests n h'') : h.Rests n h'' := by
  refine ⟨Nat.le_trans h₁.next_le h₂.next_le, fun shared'' hfind'' => ?_⟩
  obtain ⟨shared', hfind', heq'⟩ := h₂.same shared'' hfind''
  obtain ⟨shared, hfind, heq⟩ := h₁.same shared' hfind'
  exact ⟨shared, hfind, heq'.trans heq⟩

/-- Putting a list in its table leaves all others alone, and itself if only the count changes. -/
theorem put {m : Nat} {shared : SharedList α A}
    (hsame : m = n → ∃ old, h.lists.find? n = some old ∧ shared.list = old.list) :
    h.Rests n { h with lists := h.lists.put m shared } := by
  refine ⟨Nat.le_refl _, fun shared' hfind => ?_⟩
  rw [Table.find?_put] at hfind
  split at hfind
  · rename_i heq
    cases hfind
    exact hsame heq.symm
  · exact ⟨shared', hfind, rfl⟩

theorem erase (m : Nat) : h.Rests n { h with lists := h.lists.erase m } := by
  refine ⟨Nat.le_refl _, fun shared' hfind => ?_⟩
  rw [Table.find?_erase] at hfind
  split at hfind
  · cases hfind
  · exact ⟨shared', hfind, rfl⟩

theorem retain (m : Nat) : h.Rests n (h.retain m) := by
  unfold Handles.retain
  split
  · exact refl n h
  · rename_i shared hfind
    exact put fun heq => ⟨shared, heq ▸ hfind, rfl⟩

theorem release (m : Nat) : h.Rests n (h.release m) := by
  unfold Handles.release
  split
  · exact refl n h
  · rename_i shared hfind
    split
    · exact erase m
    · exact put fun heq => ⟨shared, heq ▸ hfind, rfl⟩

/-- Which handles there are does not matter to a list. -/
theorem names (names : Table String Nat) : h.Rests n { h with names := names } :=
  ⟨Nat.le_refl _, fun shared hfind => ⟨shared, hfind, rfl⟩⟩

theorem bindHandle (handle : String) (m : Nat) : h.Rests n (h.bindHandle handle m) := by
  unfold Handles.bindHandle
  split
  · exact names _
  · exact (names _).trans (release _)

/-- A new list is none of those that are there. -/
theorem adopt (hn : n < h.nextList) (handle : String) (c : Chain α A) :
    h.Rests n (h.adopt handle c) := by
  refine trans ?_ (bindHandle handle h.nextList)
  have hput : h.Rests n { h with lists := h.lists.put h.nextList ⟨c, 1⟩ } :=
    put fun heq => absurd heq hn.ne'
  exact ⟨Nat.le_succ _, hput.same⟩

theorem build (hn : n < h.nextList) (handle : String) (built : Except Fault (Chain α A)) :
    h.Rests n (h.build handle built).1 := by
  cases built with
  | error fault => exact refl n h
  | ok c => exact adopt hn handle c

theorem replace {m : Nat} (hne : m ≠ n) (c : Chain α A) : h.Rests n (h.replace m c) := by
  unfold Handles.replace
  split
  · exact refl n h
  · exact put fun heq => absurd heq hne

theorem reclaim (handle : String) : h.Rests n (h.reclaim handle).1 := by
  unfold Handles.reclaim
  split
  · exact refl n h
  · split
    · exact refl n h
    · split
      · exact (names _).trans (erase _)
      · exact refl n h

end Rests

end Handles

variable [SlotMap A] [Item α]

/-! ### Turns -/

namespace HandleStep

/-- The handle through which a step works on its list. -/
def handle? : HandleStep α → Option String
  | on handle _ => some handle
  | .section handle _ => some handle
  | _ => none

/-- The work on the list of the handle. -/
def work : HandleStep α → List (ListStep α)
  | on _ step => [step]
  | .section _ steps => steps
  | _ => []

/-- What a step answers if its work comes to a result. -/
def reply (result : Except Fault (List (Answer α))) :
    HandleStep α → Except Fault (HandleAnswer α A)
  | on _ _ => result.map fun as => .one (as.headD .done)
  | _ => result.map .many

omit [SlotMap A] [Item α] in
/-- Work that is done is answered. -/
theorem reply_ok (s : HandleStep α) (as : List (Answer α)) :
    ∃ answer, s.reply (.ok as) = (.ok answer : Except Fault (HandleAnswer α A)) := by
  cases s <;> exact ⟨_, rfl⟩

end HandleStep

/-- A turn of a list: what was asked of it through a handle, and what was answered. -/
structure Turn (α : Type) (A : Type → Type) where
  /-- What was asked. -/
  step : HandleStep α
  /-- What was answered. -/
  answer : Except Fault (HandleAnswer α A)

namespace Deed

/-- The turn that a list takes with a deed. There is none if the deed does not work on the list. -/
def turn? (n : Nat) (h : Handles α A) : Deed α A → Option (Turn α A)
  | step s => if s.handle?.bind h.names.find? = some n then some ⟨s, (h.perform s).2⟩ else none
  | adopt _ _ _ => none

/-- The turns that a list takes with deeds one after the other. -/
def turns (n : Nat) : Handles α A → List (Deed α A) → List (Turn α A)
  | _, [] => []
  | h, deed :: rest => (deed.turn? n h).toList ++ turns n (deed.perform h).1 rest

/-- The handles after deeds one after the other. -/
def performAll (h : Handles α A) (deeds : List (Deed α A)) : Handles α A :=
  deeds.foldl (fun h deed => (deed.perform h).1) h

end Deed

/-- Turns are answered as a plain sequence answers them one after the other, each as far as it is carried
out in the room that there is. The last argument lists all steps that are carried out in the turns. -/
inductive Serial (room : Nat) : List α → List (Turn α A) → List (ListStep α) → Prop
  /-- Nothing is asked. -/
  | nil (xs : List α) : Serial room xs [] []
  /-- A turn is taken, and others follow. -/
  | cons {xs : List α} {s : HandleStep α} {done executed : List (ListStep α)}
    {result : Except Fault (List (Answer α))} {turns : List (Turn α A)}
    (hdone : ListStep.CarriedOut room xs s.work done result)
    (hrest : Serial room (ListStep.plainAll xs done).1 turns executed) :
    Serial room xs (⟨s, s.reply result⟩ :: turns) (done ++ executed)

/-- The work of turns one after the other. -/
def Turn.workAll (turns : List (Turn α A)) : List (ListStep α) :=
  turns.flatMap fun turn => turn.step.work

omit [SlotMap A] in
/-- Where there is room for all turns, they are carried out as a whole, and each is answered. -/
theorem Serial.whole_of_room {room : Nat} {xs : List α} {turns : List (Turn α A)}
    {executed : List (ListStep α)} (h : Serial room xs turns executed)
    (hroom : ListStep.demandAll xs (Turn.workAll turns) ≤ room) :
    executed = Turn.workAll turns ∧ ∀ turn ∈ turns, ∃ answer, turn.answer = .ok answer := by
  induction h with
  | nil xs => exact ⟨rfl, fun _ hmem => nomatch hmem⟩
  | @cons xs s done executed result turns hdone hrest ih =>
    have hwork : Turn.workAll (⟨s, s.reply result⟩ :: turns) = s.work ++ Turn.workAll turns :=
      List.flatMap_cons
    rw [hwork, ListStep.demandAll_append] at hroom
    obtain ⟨rfl, rfl⟩ := hdone.whole_of_room (by omega)
    obtain ⟨hexecuted, hanswers⟩ := ih (by omega)
    refine ⟨by rw [hwork, hexecuted], fun turn hmem => ?_⟩
    rcases List.mem_cons.1 hmem with rfl | hmem
    · exact s.reply_ok _
    · exact hanswers turn hmem

/-! ### A list in its turns and between them -/

namespace Handles

/-- The work of a step through a handle is a section on its list. -/
theorem perform_eq_of_handle? {h : Handles α A} {s : HandleStep α} {handle : String} {n : Nat}
    {shared : SharedList α A} (hhandle : s.handle? = some handle)
    (hname : h.names.find? handle = some n) (hfind : h.lists.find? n = some shared) :
    h.perform s =
      (h.replace n (ListStep.performAll s.work shared.list).1,
        s.reply (ListStep.performAll s.work shared.list).2) := by
  cases s with
  | on handle' step =>
    cases hhandle
    rw [perform, exclusive_eq hname hfind]
    rfl
  | «section» handle' steps =>
    cases hhandle
    rw [perform, exclusive_eq hname hfind]
    rfl
  | create | collect | share | drop | reclaim => cases hhandle

/-- A section on another list leaves a list alone. -/
theorem Rests.exclusive {h : Handles α A} {n : Nat} {handle : String}
    (hother : h.names.find? handle ≠ some n) (steps : List (ListStep α)) :
    h.Rests n (h.exclusive handle steps).1 := by
  unfold Handles.exclusive
  split
  · exact .refl n h
  · rename_i m hname
    split
    · exact .refl n h
    · exact .replace (fun heq => hother (by rw [hname, heq])) _

end Handles

namespace Deed

variable {h : Handles α A} {n : Nat}

/-- A deed that is no turn of a list leaves the list alone. -/
theorem rests_of_no_turn (hn : n < h.nextList) {deed : Deed α A} (hturn : deed.turn? n h = none) :
    h.Rests n (deed.perform h).1 := by
  cases deed with
  | adopt handle c _ => exact .adopt hn handle c
  | step s =>
    have hother : s.handle?.bind h.names.find? ≠ some n := by
      intro heq
      rw [turn?, if_pos heq] at hturn
      cases hturn
    rw [perform]
    cases s with
    | create handle capacity => exact .build hn handle _
    | collect handle items => exact .build hn handle _
    | share handle target =>
      rw [Handles.perform]
      split
      · exact .refl n h
      · exact (Handles.Rests.retain _).trans (.bindHandle target _)
    | drop handle =>
      rw [Handles.perform]
      split
      · exact .refl n h
      · exact (Handles.Rests.names _).trans (.release _)
    | on handle step =>
      rw [Handles.perform_on_fst]
      exact .exclusive hother [step]
    | «section» handle steps =>
      rw [Handles.perform_section_fst]
      exact .exclusive hother steps
    | reclaim handle => exact .reclaim handle

/-- A turn is taken as the sequence of the items takes it, as far as there is room. -/
theorem turn_spec {shared : SharedList α A} {xs : List α}
    (hfind : h.lists.find? n = some shared) (hxs : shared.list.Holds xs) {deed : Deed α A}
    {turn : Turn α A} (hturn : deed.turn? n h = some turn) :
    ∃ s done result shared', turn = ⟨s, s.reply result⟩ ∧
      ListStep.CarriedOut (SlotMap.room A) xs s.work done result ∧
      (deed.perform h).1.lists.find? n = some shared' ∧
      shared'.list.Holds (ListStep.plainAll xs done).1 := by
  cases deed with
  | adopt handle c _ => cases hturn
  | step s =>
    rw [turn?] at hturn
    split at hturn
    · rename_i hdenotes
      cases hturn
      obtain ⟨handle, hhandle, hname⟩ := Option.bind_eq_some_iff.1 hdenotes
      obtain ⟨done, hdone, hleft⟩ := ListStep.performAll_carriedOut hxs s.work
      have hperform := Handles.perform_eq_of_handle? hhandle hname hfind
      refine ⟨s, done, _, ⟨_, shared.handles⟩, ?_, hdone, ?_, hleft⟩
      · rw [hperform]
      · rw [perform, hperform, Handles.replace_eq hfind]
        exact (Table.find?_put _ _ _ _).trans (if_pos rfl)
    · cases hturn

/-- Every deed keeps handles and lists in good order. -/
theorem valid_perform (hv : h.Valid) (deed : Deed α A) : (deed.perform h).1.Valid := by
  cases deed with
  | step s => exact hv.perform s
  | adopt handle c hc => exact hv.adopt handle hc

theorem valid_performAll (hv : h.Valid) (deeds : List (Deed α A)) : (performAll h deeds).Valid := by
  induction deeds generalizing h with
  | nil => exact hv
  | cons deed rest ih => exact ih (valid_perform hv deed)

/-- A list that is gone takes no turns. -/
theorem turns_eq_nil_of_gone (hv : h.Valid) (hn : n < h.nextList) (hgone : h.lists.find? n = none)
    (deeds : List (Deed α A)) : turns n h deeds = [] := by
  induction deeds generalizing h with
  | nil => rfl
  | cons deed rest ih =>
    have hturn : deed.turn? n h = none := by
      cases deed with
      | adopt handle c _ => rfl
      | step s =>
        refine if_neg fun hdenotes => ?_
        obtain ⟨handle, -, hname⟩ := Option.bind_eq_some_iff.1 hdenotes
        obtain ⟨shared, hfind⟩ := hv.find?_of_name hname
        rw [hgone] at hfind
        cases hfind
    have hrests := rests_of_no_turn hn hturn
    have hstill : (deed.perform h).1.lists.find? n = none := by
      rw [Option.eq_none_iff_forall_ne_some]
      intro shared' hfind'
      obtain ⟨shared, hfind, -⟩ := hrests.same shared' hfind'
      rw [hgone] at hfind
      cases hfind
    rw [turns, hturn, ih (valid_perform hv deed) (Nat.lt_of_lt_of_le hn hrests.next_le) hstill]
    rfl

/-- A list that takes no turns is left alone. -/
theorem rests_of_no_turns (hn : n < h.nextList) {deeds : List (Deed α A)}
    (hturns : turns n h deeds = []) : h.Rests n (performAll h deeds) := by
  induction deeds generalizing h with
  | nil => exact .refl n h
  | cons deed rest ih =>
    rw [turns, List.append_eq_nil_iff, Option.toList_eq_nil_iff] at hturns
    have hrests := rests_of_no_turn hn hturns.1
    exact hrests.trans (ih (Nat.lt_of_lt_of_le hn hrests.next_le) hturns.2)

/-- What rests is seen through every handle as it was. -/
theorem list?_of_rests {h' : Handles α A} (hv' : h'.Valid) (hrests : h.Rests n h')
    {shared : SharedList α A} (hfind : h.lists.find? n = some shared) {handle : String}
    (hname : h'.names.find? handle = some n) : h'.list? handle = some shared.list := by
  obtain ⟨shared', hfind'⟩ := hv'.find?_of_name hname
  obtain ⟨old, hold, heq⟩ := hrests.same shared' hfind'
  rw [hfind] at hold
  cases hold
  rw [Handles.list?_eq hname hfind', heq]

/-- All turns of a list are taken one after the other as the sequence of its items takes them, and what
comes of them is seen through every handle that the list still has. -/
theorem turns_spec (hv : h.Valid) {shared : SharedList α A} {xs : List α}
    (hfind : h.lists.find? n = some shared) (hxs : shared.list.Holds xs) (deeds : List (Deed α A)) :
    ∃ executed, Serial (SlotMap.room A) xs (turns n h deeds) executed ∧
      ∀ handle, (performAll h deeds).names.find? handle = some n →
        ∃ c, (performAll h deeds).list? handle = some c ∧
          c.Holds (ListStep.plainAll xs executed).1 := by
  induction deeds generalizing h shared xs with
  | nil =>
    exact ⟨[], .nil xs, fun handle hname => ⟨_, Handles.list?_eq hname hfind, hxs⟩⟩
  | cons deed rest ih =>
    have hv' := valid_perform hv deed
    cases hturn : deed.turn? n h with
    | some turn =>
      obtain ⟨s, done, result, shared', rfl, hdone, hfind', hleft⟩ := turn_spec hfind hxs hturn
      obtain ⟨executed, hserial, hseen⟩ := ih hv' hfind' hleft
      refine ⟨done ++ executed, ?_, ?_⟩
      · rw [turns, hturn]
        exact .cons hdone hserial
      · rw [ListStep.plainAll_append]
        exact hseen
    | none =>
      have hn := hv.numbered n shared hfind
      have hrests := rests_of_no_turn hn hturn
      rw [turns, hturn]
      -- The deed may have given the last handle up; then there are no more turns to account for.
      cases hfind' : (deed.perform h).1.lists.find? n with
      | some shared' =>
        obtain ⟨old, hold, heq⟩ := hrests.same shared' hfind'
        rw [hfind] at hold
        cases hold
        exact ih hv' hfind' (heq ▸ hxs)
      | none =>
        have hn' := Nat.lt_of_lt_of_le hn hrests.next_le
        refine ⟨[], ?_, fun handle hname => ?_⟩
        · rw [turns_eq_nil_of_gone hv' hn' hfind' rest]
          exact .nil xs
        · have hlate := rests_of_no_turns hn' (turns_eq_nil_of_gone hv' hn' hfind' rest)
          obtain ⟨shared', hlast⟩ := (valid_performAll hv' rest).find?_of_name hname
          obtain ⟨old, hold, -⟩ := hlate.same shared' hlast
          rw [hfind'] at hold
          cases hold

end Deed

namespace History

/-- Later deeds find the handles that earlier ones have left. -/
theorem handles_of_append (before deeds : List (Deed α A)) :
    (of (before ++ deeds)).handles = Deed.performAll (of before).handles deeds := by
  rw [of, List.foldl_append, ← of]
  generalize of before = past
  induction deeds generalizing past with
  | nil => rfl
  | cons deed rest ih => exact ih (past.after deed)

/-- However the uses of a list through its handles are ordered among each other and among all other deeds,
the list takes them as one plain sequence in their order; if there is room, then as a whole. As long as
no step that is carried out gives the list up, the items put in are the items handed out and those still
there, each as often; and if the list is used as a queue, they are handed out in order. A list that
takes no turn stays as it is. -/
theorem turns_serial (before deeds : List (Deed α A)) {n : Nat} {shared : SharedList α A}
    (hfind : (of before).handles.lists.find? n = some shared) :
    ∃ xs executed, shared.list.Intact xs ∧
      Serial (SlotMap.room A) xs (Deed.turns n (of before).handles deeds) executed ∧
      (ListStep.demandAll xs (Turn.workAll (Deed.turns n (of before).handles deeds)) ≤
          SlotMap.room A →
        executed = Turn.workAll (Deed.turns n (of before).handles deeds) ∧
          ∀ turn ∈ Deed.turns n (of before).handles deeds, ∃ answer, turn.answer = .ok answer) ∧
      (∀ handle, (of (before ++ deeds)).handles.names.find? handle = some n →
        ∃ c, (of (before ++ deeds)).handles.list? handle = some c ∧
          c.Intact (ListStep.plainAll xs executed).1) ∧
      ((∀ step ∈ executed, step.keeps) →
        (xs ++ executed.flatMap ListStep.inserted).Perm
          (ListStep.deliveredAll xs executed ++ (ListStep.plainAll xs executed).1)) ∧
      ((∀ step ∈ executed, step.queues) →
        xs ++ executed.flatMap ListStep.inserted =
          ListStep.deliveredAll xs executed ++ (ListStep.plainAll xs executed).1) ∧
      (Deed.turns n (of before).handles deeds = [] →
        ∀ handle, (of (before ++ deeds)).handles.names.find? handle = some n →
          (of (before ++ deeds)).handles.list? handle = some shared.list) := by
  have hv := (sound_of before).valid
  have hv' := Deed.valid_performAll hv deeds
  obtain ⟨xs, hxs⟩ := (hv.kept n shared hfind).reachable.holds
  obtain ⟨executed, hserial, hseen⟩ := Deed.turns_spec hv hfind hxs deeds
  rw [handles_of_append]
  refine ⟨xs, executed, hxs.intact, hserial, hserial.whole_of_room, fun handle hname => ?_,
    ListStep.plainAll_conserves xs, ListStep.plainAll_queues xs, fun hturns handle hname => ?_⟩
  · obtain ⟨c, hlist, hc⟩ := hseen handle hname
    exact ⟨c, hlist, hc.intact⟩
  · have hrests := Deed.rests_of_no_turns (hv.numbered n shared hfind) hturns
    exact Deed.list?_of_rests hv' hrests hfind hname

/-- Two handles take turns on a list, until one of them is dropped. Another list is used in between. All
turns are answered, and what was put in last is still there in the end. -/
theorem turns_serial_two_handles :
    ∃ before deeds : List (Deed Int Arena),
      before = [.step (.create "a" 0), .step (.share "a" "b"), .step (.create "c" 0)] ∧
      deeds = [.step (.on "a" (.append 1)), .step (.on "c" (.append 9)),
        .step (.section "b" [.append 2, .ask .len]), .step (.drop "a"),
        .step (.on "b" .deleteHead)] ∧
      (of before).handles.lists.find? 0 = some ⟨.empty, 2⟩ ∧
      ((Deed.turns 0 (of before).handles deeds).map fun turn => turn.step.handle?) =
        [some "a", some "b", some "b"] ∧
      ((of (before ++ deeds)).handles.list? "b").map Chain.items = some (.ok [2]) ∧
      ∃ executed,
        Serial (SlotMap.room Arena) [] (Deed.turns 0 (of before).handles deeds) executed ∧
        (∀ turn ∈ Deed.turns 0 (of before).handles deeds, ∃ answer, turn.answer = .ok answer) ∧
        (ListStep.plainAll [] executed).1 = [2] ∧
        ((∀ step ∈ executed, step.queues) →
          executed.flatMap ListStep.inserted = ListStep.deliveredAll [] executed ++ [2]) := by
  have hfind : (of ([.step (.create "a" 0), .step (.share "a" "b"), .step (.create "c" 0)] :
      List (Deed Int Arena))).handles.lists.find? 0 = some ⟨.empty, 2⟩ := rfl
  obtain ⟨xs, executed, hintact, hserial, hroom, hseen, -, hqueues, -⟩ := turns_serial _
    [.step (.on "a" (.append 1)), .step (.on "c" (.append 9)),
      .step (.section "b" [.append 2, .ask .len]), .step (.drop "a"), .step (.on "b" .deleteHead)]
    hfind
  have hnil : [] = xs := Except.ok.inj (Chain.holds_empty.items_eq.symm.trans hintact.readable)
  subst hnil
  have hanswers := (hroom (by decide +kernel)).2
  obtain ⟨c, hlist, hc⟩ := hseen "b" (by decide +kernel)
  have hitems : ((of ([.step (.create "a" 0), .step (.share "a" "b"), .step (.create "c" 0)] ++
      [.step (.on "a" (.append 1)), .step (.on "c" (.append 9)),
        .step (.section "b" [.append 2, .ask .len]), .step (.drop "a"),
        .step (.on "b" .deleteHead)] : List (Deed Int Arena))).handles.list? "b").map Chain.items =
      some (.ok [2]) := by decide +kernel
  have hleft : (ListStep.plainAll [] executed).1 = [2] := by
    rw [hlist, Option.map_some, hc.readable] at hitems
    exact Except.ok.inj (Option.some.inj hitems)
  rw [hleft] at hqueues
  exact ⟨_, _, rfl, rfl, hfind, by decide +kernel, hitems, executed, hserial, hanswers, hleft,
    hqueues⟩

end History

end SlotChain

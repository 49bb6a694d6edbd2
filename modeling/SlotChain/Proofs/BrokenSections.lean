import SlotChain.Proofs.Serialization

/-!
# Sections that break off

A section may stop in the middle, because a step asks for a new list with more room than there can be. The
steps before have been carried out and stay, the new list does not come about, and the steps behind are
never looked at. What is left is what a section of the steps before would have left: the same list for the
same handles, in good order, and ready for whatever is done with it next.
-/

namespace SlotChain

variable {α : Type} {A : Type → Type} [SlotMap A] [Item α]

namespace ListStep

/-- The room that a step reserves for a new list in the place of the old one. -/
def reserves : ListStep α → Option Nat
  | build capacity => some capacity
  | collect items => some items.length
  | _ => none

/-- A new list is not built with more room than there can be. -/
theorem perform_of_reserves {step : ListStep α} {capacity : Nat} (hstep : step.reserves = some capacity)
    (hroom : SlotMap.room A < capacity) (c : Chain α A) :
    step.perform c = .error .capacityOverflow := by
  have hbuild : (Chain.withCapacity capacity : Except Fault (Chain α A)) = .error .capacityOverflow :=
    if_neg (Nat.not_le_of_lt hroom)
  cases step with
  | build => cases hstep; rw [perform, hbuild]; rfl
  | collect => cases hstep; rw [perform, Chain.ofList, hbuild]; rfl
  | prepend | append | extend | clear | deleteHead | deleteTail | drain | ask => cases hstep

/-- A step that stops with a fault ends a course, and leaves what the steps before have left. -/
theorem performAll_stopped {before : List (ListStep α)} {c c' : Chain α A} {answers : List (Answer α)}
    (hbefore : performAll before c = (c', .ok answers)) {stop : ListStep α} {fault : Fault}
    (hstop : stop.perform c' = .error fault) (later : List (ListStep α)) :
    performAll (before ++ stop :: later) c = (c', .error fault) := by
  induction before generalizing c answers with
  | nil =>
    cases hbefore
    rw [List.nil_append, performAll, hstop]
  | cons step rest ih =>
    rw [performAll] at hbefore
    rw [List.cons_append, performAll]
    cases hstep : step.perform c with
    | error _ =>
      rw [hstep] at hbefore
      cases hbefore
    | ok o =>
      rw [hstep] at hbefore
      simp only at hbefore ⊢
      generalize hrest : performAll rest o.state = left at hbefore
      obtain ⟨d, result⟩ := left
      cases result with
      | error _ => cases hbefore
      | ok more =>
        cases hbefore
        rw [ih hrest]
        rfl

/-- A course that is answered as a whole is carried out as a whole. -/
theorem performAll_of_ok {before : List (ListStep α)} {c c' : Chain α A} {answers : List (Answer α)}
    {xs : List α} (h : c.Holds xs) (hbefore : performAll before c = (c', .ok answers)) :
    answers = (plainAll xs before).2 ∧ c'.Holds (plainAll xs before).1 := by
  obtain ⟨done, hdone, hleft⟩ := performAll_carriedOut h before
  rw [hbefore] at hdone hleft
  cases hdone with
  | whole => exact ⟨rfl, hleft⟩

end ListStep

namespace Handles

/-- A list is fit for use: however its handles are used from now on, among all that is done with handles, its
turns are answered as a plain sequence of these items answers them, and what comes of them is seen in good
order through every handle that the list still has. -/
def Usable (h : Handles α A) (n : Nat) (xs : List α) : Prop :=
  ∀ deeds : List (Deed α A), ∃ executed,
    Serial (SlotMap.room A) xs (Deed.turns n h deeds) executed ∧
      ∀ handle, (Deed.performAll h deeds).names.find? handle = some n →
        ∃ c, (Deed.performAll h deeds).list? handle = some c ∧
          c.Intact (ListStep.plainAll xs executed).1

/-- A list in good order is fit for use. -/
theorem Valid.usable {h : Handles α A} (hv : h.Valid) {n : Nat} {shared : SharedList α A} {xs : List α}
    (hfind : h.lists.find? n = some shared) (hxs : shared.list.Holds xs) : h.Usable n xs := by
  intro deeds
  obtain ⟨executed, hserial, hseen⟩ := Deed.turns_spec hv hfind hxs deeds
  refine ⟨executed, hserial, fun handle hname => ?_⟩
  obtain ⟨c, hlist, hc⟩ := hseen handle hname
  exact ⟨c, hlist, hc.intact⟩

end Handles

namespace History

/-- A section breaks off after some of its steps. -/
structure BreaksOff (past : History α A) (handle : String) (before rest : List (ListStep α))
    (answers : List (Answer α)) (c : Chain α A) (xs : List α) (h : Handles α A) : Prop where
  /-- The section stops with a fault. -/
  fault : past.handles.perform (.section handle (before ++ rest)) = (h, .error .capacityOverflow)
  /-- The steps before the fault alone are answered, and leave the same. -/
  part : past.handles.perform (.section handle before) = (h, .ok (.many answers))
  /-- The list is in good order. -/
  intact : c.Intact xs
  /-- All handles denote the lists that they denoted before. -/
  names : h.names = past.handles.names
  /-- The list is seen through all of its handles, and nothing else has changed. -/
  seen : ∀ b, h.list? b =
    if past.origin b = past.origin handle then some c else past.handles.list? b
  /-- The list is fit for use. -/
  usable : ∀ n, h.names.find? handle = some n → h.Usable n xs

/-- A section whose next step asks for a new list with more room than there can be breaks off before it, and
leaves the list as the steps before have left it. The steps behind do not matter. -/
theorem section_breaks_off (deeds : List (Deed α A)) {handle : String} {c c' : Chain α A}
    (hlist : (of deeds).handles.list? handle = some c) {before : List (ListStep α)}
    {answers : List (Answer α)} (hbefore : ListStep.performAll before c = (c', .ok answers))
    {stop : ListStep α} {capacity : Nat} (hstop : stop.reserves = some capacity)
    (hroom : SlotMap.room A < capacity) :
    ∃ xs h, c.Intact xs ∧ answers = (ListStep.plainAll xs before).2 ∧
      ∀ later, (of deeds).BreaksOff handle before (stop :: later) answers c'
        (ListStep.plainAll xs before).1 h := by
  have hsound := sound_of deeds
  obtain ⟨n, shared, hname, hfind, rfl⟩ := Handles.list?_eq_some_iff.1 hlist
  obtain ⟨xs, hxs⟩ := (hsound.valid.kept n shared hfind).reachable.holds
  obtain ⟨hanswers, hc'⟩ := ListStep.performAll_of_ok hxs hbefore
  have hpart : (of deeds).handles.perform (.section handle before) =
      ((of deeds).handles.replace n c', .ok (.many answers)) := by
    rw [Handles.perform_eq_of_handle? rfl hname hfind, HandleStep.work, hbefore]
    rfl
  have hfind' : ((of deeds).handles.replace n c').lists.find? n = some { shared with list := c' } := by
    rw [Handles.replace_eq hfind]
    exact (Table.find?_put _ _ _ _).trans (if_pos rfl)
  have hvalid := hsound.valid.perform (.section handle before)
  rw [hpart] at hvalid
  refine ⟨xs, (of deeds).handles.replace n c', hxs.intact, hanswers, fun later => ?_⟩
  exact
    { fault := by
        have hstopped := ListStep.performAll_stopped hbefore
          (ListStep.perform_of_reserves hstop hroom c') later
        rw [Handles.perform_eq_of_handle? rfl hname hfind, HandleStep.work, hstopped]
        rfl
      part := hpart
      intact := hc'.intact
      names := Handles.names_replace _ n c'
      seen := by
        intro b
        have hseen := hsound.seen hlist before b
        rwa [hbefore, Handles.exclusive_eq hname hfind, hbefore] at hseen
      usable := by
        intro m hm
        rw [Handles.names_replace, hname] at hm
        cases hm
        exact hvalid.usable hfind' hc' }

/-- In the middle of a section on a list with two handles, a list is to be built that is too large by one
cell. Through the other handle the list is seen as the steps before have left it. -/
theorem section_breaks_off_two_handles :
    ∃ (c c' : Chain Int) (h : Handles Int),
      (of [.step (.create "a" 0), .step (.share "a" "b"),
        .step (.on "b" (.append 1))]).handles.list? "a" = some c ∧
      ListStep.performAll [.append 2, .deleteHead] c = (c', .ok [.done, .item (some 1)]) ∧
      (.build 1152921504606846976 : ListStep Int).reserves = some 1152921504606846976 ∧
      SlotMap.room Arena < 1152921504606846976 ∧
      (∀ later, (of [.step (.create "a" 0), .step (.share "a" "b"),
        .step (.on "b" (.append 1))]).BreaksOff "a" [.append 2, .deleteHead]
          (.build 1152921504606846976 :: later) [.done, .item (some 1)] c' [2] h) ∧
      h.list? "b" = some c' := by
  obtain ⟨c, hlist⟩ : ∃ c, (of ([.step (.create "a" 0), .step (.share "a" "b"),
      .step (.on "b" (.append 1))] : List (Deed Int Arena))).handles.list? "a" = some c :=
    Option.isSome_iff_exists.1 (by decide +kernel)
  have hitems : ((of ([.step (.create "a" 0), .step (.share "a" "b"),
      .step (.on "b" (.append 1))] : List (Deed Int Arena))).handles.list? "a").map Chain.items =
      some (.ok [1]) := by decide +kernel
  rw [hlist, Option.map_some, Option.some.injEq] at hitems
  obtain ⟨n, shared, -, hfind, rfl⟩ := Handles.list?_eq_some_iff.1 hlist
  have hc := ((sound_of _).valid.kept n shared hfind).reachable.holds_of_items hitems
  have hdemand : ListStep.demandAll [(1 : Int)] [.append 2, .deleteHead] ≤ SlotMap.room Arena := by
    decide
  obtain ⟨c', hbefore, -⟩ := ListStep.performAll_spec hc hdemand
  have hstop : (.build 1152921504606846976 : ListStep Int).reserves = some 1152921504606846976 := rfl
  have hroom : SlotMap.room Arena < 1152921504606846976 := by decide
  obtain ⟨xs, h, hintact, -, hbreaks⟩ := section_breaks_off _ hlist hbefore hstop hroom
  obtain rfl : [1] = xs := Except.ok.inj (hitems.symm.trans hintact.readable)
  refine ⟨shared.list, c', h, hlist, hbefore, rfl, hroom, hbreaks, ?_⟩
  rw [(hbreaks []).seen "b"]
  exact if_pos rfl

end History

end SlotChain

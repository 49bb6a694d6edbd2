import SlotChain.Proofs.JsonValues

/-!
# Objects whose members are told apart

The members of an object are looked up by the texts that their names denote, so each name has to denote
one. White space and the spelling of a name aside, a text is an object of these members only: two readings
of the same text give the same names with the same values in the same order.
-/

namespace SlotChain.Json

/-- A well-formed member whose name denotes a text. -/
structure Member.Proper (m : Member) : Prop where
  /-- There is only white space around its name and its value. -/
  spaced : m.Spaced
  /-- Its name denotes a text. -/
  named : ∃ text, Denotes m.name text
  /-- Its value is a JSON value. -/
  value : WellFormed m.element.value

/-- A well-formed element. -/
structure Element.Proper (e : Element) : Prop where
  /-- There is only white space around its value. -/
  spaced : e.Spaced
  /-- Its value is a JSON value. -/
  value : WellFormed e.value

/-- A text is an object of the given members, within white space. -/
inductive IsObject (cs : List Char) (ms : List Member) : Prop
  | intro {before blank after : List Char} (hbefore : Blank before) (hblank : Blank blank)
    (hms : ∀ m ∈ ms, m.Proper) (hafter : Blank after)
    (hcs : cs = before ++ (objectText blank ms ++ after))

/-- A text is an array of the given elements, within white space. -/
inductive IsArray (cs : List Char) (es : List Element) : Prop
  | intro {before blank after : List Char} (hbefore : Blank before) (hblank : Blank blank)
    (hes : ∀ e ∈ es, e.Proper) (hafter : Blank after)
    (hcs : cs = before ++ (arrayText blank es ++ after))

/-! ### One reading only -/

/-- A spelling that denotes a text spells a string. -/
theorem Denotes.spells {s text : List Char} (h : Denotes s text) : SpellsString s := by
  induction h with
  | nil => exact .nil
  | plain hc _ ih => exact .plain hc ih
  | escape he _ ih =>
    cases he with
    | named h => exact .escape (.named h) ih
    | unit hu _ _ => exact .escape (.unit hu) ih
    | pair hu _ hv _ =>
      have htrail := SpellsString.escape (.unit hv) ih
      simpa using SpellsString.escape (.unit hu) htrail

/-- Behind white space a text goes on in one way only. -/
theorem cons_eq_of_blank {b b' : List Char} (hb : Blank b) (hb' : Blank b') {c c' : Char}
    (hc : isBlank c = false) (hc' : isBlank c' = false) {rest rest' : List Char}
    (h : b ++ c :: rest = b' ++ c' :: rest') : c = c' ∧ rest = rest' := by
  have hskip := congrArg skipBlank h
  rw [skipBlank_front hb hc, skipBlank_front hb' hc'] at hskip
  exact List.cons.inj hskip

/-- A string ends at one quotation mark only. -/
theorem SpellsString.cancel {s s' rest rest' : List Char} (hs : SpellsString s)
    (hs' : SpellsString s') (h : s ++ '"' :: rest = s' ++ '"' :: rest') : s = s' ∧ rest = rest' := by
  have hskip : skipString (s ++ '"' :: rest) = .ok rest := skipString_iff.2 ⟨s, hs, rfl⟩
  have hskip' : skipString (s ++ '"' :: rest) = .ok rest' := skipString_iff.2 ⟨s', hs', h⟩
  rw [hskip] at hskip'
  cases hskip'
  exact ⟨List.append_cancel_right h, rfl⟩

/-- A value starts with no white space. -/
theorem WellFormed.skipBlank {s : List Char} (hs : WellFormed s) (rest : List Char) :
    Json.skipBlank (s ++ rest) = s ++ rest := by
  cases hs with
  | null => exact skipBlank_cons (by decide) _
  | true => exact skipBlank_cons (by decide) _
  | false => exact skipBlank_cons (by decide) _
  | string _ => exact skipBlank_cons (by decide) _
  | number hs =>
    cases hs with
    | positive hs =>
      obtain ⟨c, t, hc, rfl⟩ := hs.exists_digit
      exact skipBlank_cons (isBlank_of_isDigit hc) _
    | negative _ => exact skipBlank_cons (by decide) _
  | array _ _ _ => exact skipBlank_cons (by decide) _
  | object _ _ _ _ => exact skipBlank_cons (by decide) _

/-- Two values at one place, as long as nothing continues a number behind them, are the same. -/
theorem WellFormed.cancel {b b' s s' rest rest' : List Char} (hs : WellFormed s)
    (hs' : WellFormed s') (hb : Blank b) (hb' : Blank b') (hrest : EndsNumber rest)
    (hrest' : EndsNumber rest') (h : b ++ (s ++ rest) = b' ++ (s' ++ rest')) :
    s = s' ∧ rest = rest' := by
  have hskip := hs.skipValue hb hrest
  rw [h, hs'.skipValue hb' hrest'] at hskip
  cases hskip
  have hfront := congrArg Json.skipBlank h
  rw [skipBlank_append hb, skipBlank_append hb', hs.skipBlank, hs'.skipBlank] at hfront
  exact ⟨List.append_cancel_right hfront, rfl⟩

/-- What a member says, white space aside. -/
def Member.entry (m : Member) : List Char × List Char := (m.name, m.element.value)

/-- Two members at one place say the same. -/
theorem Member.Proper.cancel {m m' : Member} (hm : m.Proper) (hm' : m'.Proper)
    {b b' rest rest' : List Char} (hb : Blank b) (hb' : Blank b') (hrest : EndsNumber rest)
    (hrest' : EndsNumber rest') (h : b ++ (m.text ++ rest) = b' ++ (m'.text ++ rest')) :
    m.entry = m'.entry ∧ m.element.after ++ rest = m'.element.after ++ rest' := by
  obtain ⟨hspaced, ⟨_, hname⟩, hvalue⟩ := hm
  obtain ⟨hspaced', ⟨_, hname'⟩, hvalue'⟩ := hm'
  have hblank : Blank (b ++ m.before) := List.forall_mem_append.2 ⟨hb, hspaced.before⟩
  have hblank' : Blank (b' ++ m'.before) := List.forall_mem_append.2 ⟨hb', hspaced'.before⟩
  have hopen := cons_eq_of_blank hblank hblank' (by decide) (by decide)
    (show (b ++ m.before) ++ '"' :: (m.name ++ '"' :: (m.between ++ ':' :: (m.element.text ++ rest))) =
      (b' ++ m'.before) ++ '"' :: (m'.name ++ '"' :: (m'.between ++ ':' :: (m'.element.text ++ rest')))
      by simpa [Member.text] using h)
  obtain ⟨hnames, hrests⟩ := hname.spells.cancel hname'.spells hopen.2
  obtain ⟨-, helements⟩ := cons_eq_of_blank hspaced.between hspaced'.between (by decide) (by decide) hrests
  rw [Element.text, Element.text, List.append_assoc, List.append_assoc, List.append_assoc,
    List.append_assoc] at helements
  obtain ⟨hvalues, hafter⟩ := hvalue.cancel hvalue' hspaced.element.before hspaced'.element.before
    (endsNumber_append hspaced.element.after hrest) (endsNumber_append hspaced'.element.after hrest')
    helements
  exact ⟨Prod.ext hnames hvalues, hafter⟩

/-- Members that follow one another up to a closing brace say the same in every reading. -/
theorem entries_eq_of_following {ms ms' : List Member} (hms : ∀ m ∈ ms, m.Proper)
    (hms' : ∀ m ∈ ms', m.Proper) {b b' rest rest' : List Char} (hb : Blank b) (hb' : Blank b')
    (h : b ++ following '\x7d' rest (ms.map Member.text) =
      b' ++ following '\x7d' rest' (ms'.map Member.text)) :
    ms.map Member.entry = ms'.map Member.entry := by
  -- What separates the marks may be split up between a member and the white space in front of the next
  -- mark, so the induction is over all such white space.
  induction ms generalizing ms' b b' with
  | nil =>
    cases ms' with
    | nil => rfl
    | cons m' ms' => exact absurd (cons_eq_of_blank hb hb' (by decide) (by decide) h).1 (by decide)
  | cons m ms ih =>
    cases ms' with
    | nil => exact absurd (cons_eq_of_blank hb hb' (by decide) (by decide) h).1 (by decide)
    | cons m' ms' =>
      obtain ⟨hm, hms⟩ := List.forall_mem_cons.1 hms
      obtain ⟨hm', hms'⟩ := List.forall_mem_cons.1 hms'
      obtain ⟨-, htexts⟩ := cons_eq_of_blank hb hb' (by decide) (by decide) h
      rw [separated_append, separated_append] at htexts
      obtain ⟨hentry, hafter⟩ := hm.cancel hm' (List.forall_mem_nil _) (List.forall_mem_nil _)
        (endsNumber_following (by decide) _ _) (endsNumber_following (by decide) _ _) htexts
      rw [List.map_cons, List.map_cons, hentry,
        ih hms hms' hm.spaced.element.after hm'.spaced.element.after hafter]

/-- Behind its opening brace an object with members differs from one without. -/
theorem Member.Proper.text_ne {m : Member} (hm : m.Proper) {b b' : List Char} (hb : Blank b)
    (hb' : Blank b') (rest rest' : List Char) : b ++ (m.text ++ rest) ≠ b' ++ '\x7d' :: rest' := by
  intro h
  have hblank : Blank (b ++ m.before) := List.forall_mem_append.2 ⟨hb, hm.spaced.before⟩
  rw [Member.text, List.append_assoc, ← List.append_assoc, List.cons_append] at h
  exact absurd (cons_eq_of_blank hblank hb' (by decide) (by decide) h).1 (by decide)

/-- The members of an object say the same in every reading. -/
theorem entries_eq {ms ms' : List Member} (hms : ∀ m ∈ ms, m.Proper) (hms' : ∀ m ∈ ms', m.Proper)
    {b b' rest rest' : List Char} (hb : Blank b) (hb' : Blank b')
    (h : b ++ (separated (ms.map Member.text) ++ '\x7d' :: rest) =
      b' ++ (separated (ms'.map Member.text) ++ '\x7d' :: rest')) :
    ms.map Member.entry = ms'.map Member.entry := by
  cases ms with
  | nil =>
    cases ms' with
    | nil => rfl
    | cons m' ms' =>
      rw [List.map_cons, separated_append] at h
      exact absurd h.symm ((hms' m' List.mem_cons_self).text_ne hb' hb _ _)
  | cons m ms =>
    cases ms' with
    | nil =>
      rw [List.map_cons, separated_append] at h
      exact absurd h ((hms m List.mem_cons_self).text_ne hb hb' _ _)
    | cons m' ms' =>
      obtain ⟨hm, hms⟩ := List.forall_mem_cons.1 hms
      obtain ⟨hm', hms'⟩ := List.forall_mem_cons.1 hms'
      rw [List.map_cons, List.map_cons, separated_append, separated_append] at h
      obtain ⟨hentry, hafter⟩ := hm.cancel hm' hb hb' (endsNumber_following (by decide) _ _)
        (endsNumber_following (by decide) _ _) h
      rw [List.map_cons, List.map_cons, hentry, entries_eq_of_following hms hms'
        hm.spaced.element.after hm'.spaced.element.after hafter]

/-- A text is an object of the same names and values in every reading. -/
theorem IsObject.entries_eq {cs : List Char} {ms ms' : List Member} (h : IsObject cs ms)
    (h' : IsObject cs ms') : ms.map Member.entry = ms'.map Member.entry := by
  obtain ⟨hbefore, hblank, hms, -, rfl⟩ := h
  obtain ⟨hbefore', hblank', hms', -, hcs⟩ := h'
  rw [objectText, objectText, List.cons_append, List.cons_append] at hcs
  obtain ⟨-, hinner⟩ := cons_eq_of_blank hbefore hbefore' (by decide) (by decide) hcs
  rw [List.append_assoc, List.append_assoc, List.append_assoc, List.append_assoc] at hinner
  exact Json.entries_eq hms hms' hblank hblank' hinner

/-- No text is an object and an array. -/
theorem IsObject.not_isArray {cs : List Char} {ms : List Member} (h : IsObject cs ms)
    (es : List Element) : ¬ IsArray cs es := by
  intro h'
  obtain ⟨hbefore, -, -, -, rfl⟩ := h
  obtain ⟨hbefore', -, -, -, hcs⟩ := h'
  rw [objectText, arrayText, List.cons_append, List.cons_append] at hcs
  exact absurd (cons_eq_of_blank hbefore hbefore' (by decide) (by decide) hcs).1 (by decide)

end SlotChain.Json

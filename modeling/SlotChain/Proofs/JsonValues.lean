import SlotChain.Proofs.JsonNumbers

/-!
# The grammar of JSON values

White space may stand around the values of a JSON text and between its tokens. The elements of an array
and the members of an object are values with the white space around them. A value that is skipped is one
that this grammar forms, whatever it is nested in, and every value that it forms is skipped as a whole.
-/

namespace SlotChain.Json

/-! ### The grammar -/

/-- White space. -/
def Blank (cs : List Char) : Prop := ∀ c ∈ cs, isBlank c = true

instance (cs : List Char) : Decidable (Blank cs) :=
  decidable_of_iff (cs.all isBlank = true) List.all_eq_true

/-- A value with the white space around it. -/
structure Element where
  /-- The white space in front of the value. -/
  before : List Char
  /-- The value. -/
  value : List Char
  /-- The white space behind the value. -/
  after : List Char

/-- A member of an object. -/
structure Member where
  /-- The white space in front of the name. -/
  before : List Char
  /-- The spelling of the name, between its quotation marks. -/
  name : List Char
  /-- The white space between the name and the colon. -/
  between : List Char
  /-- What stands behind the colon. -/
  element : Element

/-- The text of an element. -/
def Element.text (e : Element) : List Char := e.before ++ (e.value ++ e.after)

/-- There is only white space around the value of an element. -/
structure Element.Spaced (e : Element) : Prop where
  before : Blank e.before
  after : Blank e.after

/-- The text of a member. -/
def Member.text (m : Member) : List Char :=
  m.before ++ '"' :: (m.name ++ '"' :: (m.between ++ ':' :: m.element.text))

/-- There is only white space around the name and the value of a member. -/
structure Member.Spaced (m : Member) : Prop where
  before : Blank m.before
  between : Blank m.between
  element : m.element.Spaced

/-- Texts one behind the other, with commas between them. -/
def separated (texts : List (List Char)) : List Char := [','].intercalate texts

/-- The text of an array. White space by itself may stand in front of the elements. -/
def arrayText (blank : List Char) (es : List Element) : List Char :=
  '[' :: (blank ++ (separated (es.map Element.text) ++ [']']))

/-- The text of an object. White space by itself may stand in front of the members. -/
def objectText (blank : List Char) (ms : List Member) : List Char :=
  '\x7b' :: (blank ++ (separated (ms.map Member.text) ++ ['\x7d']))

/-- A JSON value. -/
inductive WellFormed : List Char → Prop
  | null : WellFormed "null".toList
  | true : WellFormed "true".toList
  | false : WellFormed "false".toList
  | string {s : List Char} (hs : SpellsString s) : WellFormed ('"' :: (s ++ ['"']))
  | number {s : List Char} (hs : SpellsNumber s) : WellFormed s
  | array {blank : List Char} {es : List Element} (hblank : Blank blank)
    (hspaced : ∀ e ∈ es, e.Spaced) (hvalues : ∀ e ∈ es, WellFormed e.value) :
    WellFormed (arrayText blank es)
  | object {blank : List Char} {ms : List Member} (hblank : Blank blank)
    (hspaced : ∀ m ∈ ms, m.Spaced) (hnames : ∀ m ∈ ms, SpellsString m.name)
    (hvalues : ∀ m ∈ ms, WellFormed m.element.value) : WellFormed (objectText blank ms)

/-- An integer literal is a value. -/
theorem SpellsInteger.wellFormed {s : List Char} {n : Nat} (hs : SpellsInteger s n) : WellFormed s := by
  have hparts := SpellsMagnitude.parts hs.whole .none .none
  rw [List.append_nil, List.append_nil] at hparts
  exact .number (.positive hparts)

/-! ### White space and letters -/

theorem skipBlank_append {b : List Char} (hb : Blank b) (cs : List Char) :
    skipBlank (b ++ cs) = skipBlank cs := List.dropWhile_append_of_pos hb

theorem skipBlank_cons {c : Char} (hc : isBlank c = false) (cs : List Char) :
    skipBlank (c :: cs) = c :: cs := List.dropWhile_cons_of_neg (ne_true_of_eq_false hc)

/-- The white space that is skipped. -/
theorem exists_blank (cs : List Char) : ∃ b, Blank b ∧ cs = b ++ skipBlank cs :=
  ⟨cs.takeWhile isBlank, fun _ hc => List.mem_takeWhile_imp hc, List.takeWhile_append_dropWhile.symm⟩

theorem skipBlank_skipBlank (cs : List Char) : skipBlank (skipBlank cs) = skipBlank cs := by
  obtain ⟨b, hb, hcs⟩ := exists_blank cs
  exact (skipBlank_append hb _).symm.trans (congrArg skipBlank hcs.symm)

theorem skipBlank_eq_nil {cs : List Char} : skipBlank cs = [] ↔ Blank cs := List.dropWhile_eq_nil_iff

/-- A token is found exactly if there is only white space in front of it. -/
theorem skipBlank_eq_cons {c : Char} (hc : isBlank c = false) {cs rest : List Char} :
    skipBlank cs = c :: rest ↔ ∃ b, Blank b ∧ cs = b ++ c :: rest := by
  constructor
  · intro h
    obtain ⟨b, hb, hcs⟩ := exists_blank cs
    exact ⟨b, hb, h ▸ hcs⟩
  · rintro ⟨b, hb, rfl⟩
    rw [skipBlank_append hb, skipBlank_cons hc]

theorem readLetters_iff {letters cs rest : List Char} :
    readLetters letters cs = .ok rest ↔ cs = letters ++ rest := by
  induction letters generalizing cs with
  | nil =>
    rw [readLetters, List.nil_append, Except.ok.injEq]
  | cons letter more ih =>
    cases cs with
    | nil => simp [readLetters]
    | cons c cs =>
      rw [readLetters, List.cons_append, List.cons.injEq]
      split
      · rename_i hc
        rw [ih, hc]
        simp
      · rename_i hc
        simp [Ne.symm hc]

theorem openName_iff {cs rest : List Char} :
    openName cs = .ok rest ↔ ∃ b, Blank b ∧ cs = b ++ '"' :: rest := by
  rw [← skipBlank_eq_cons (by decide), openName]
  split <;> simp_all

theorem readColon_iff {cs rest : List Char} :
    readColon cs = .ok rest ↔ ∃ b, Blank b ∧ cs = b ++ ':' :: rest := by
  rw [← skipBlank_eq_cons (by decide), readColon]
  split <;> simp_all

theorem endsNumber_cons {c : Char} (hc : CutsNumber c) (rest : List Char) : EndsNumber (c :: rest) := by
  rintro d ⟨⟩
  exact hc

/-- White space does not continue a number. -/
theorem endsNumber_append {b rest : List Char} (hb : Blank b) (hrest : EndsNumber rest) :
    EndsNumber (b ++ rest) := by
  cases b with
  | nil => exact hrest
  | cons c cs =>
    have hc := hb c List.mem_cons_self
    simp only [isBlank, Bool.or_eq_true, beq_iff_eq] at hc
    obtain ((rfl | rfl) | rfl) | rfl := hc <;> exact endsNumber_cons (by decide) _

theorem separated_singleton (t : List Char) : separated [t] = t := List.intercalate_singleton

/-- What stands behind a text if others may follow it up to a closing mark. -/
def following (close : Char) (rest : List Char) : List (List Char) → List Char
  | [] => close :: rest
  | t :: texts => ',' :: (separated (t :: texts) ++ close :: rest)

theorem separated_append (close : Char) (rest t : List Char) (texts : List (List Char)) :
    separated (t :: texts) ++ close :: rest = t ++ following close rest texts := by
  cases texts with
  | nil => rw [separated_singleton, following]
  | cons u texts =>
    rw [separated, List.intercalate_cons_cons, List.append_assoc, List.append_assoc]
    rfl

/-- There is a mark in front of each text and one behind all of them. -/
theorem length_lt_following (close : Char) (rest : List Char) (texts : List (List Char)) :
    texts.length < (following close rest texts).length := by
  induction texts with
  | nil => exact Nat.succ_pos _
  | cons t texts ih =>
    rw [following, separated_append]
    simp only [List.length_cons, List.length_append]
    omega

theorem endsNumber_following {close : Char} (hclose : CutsNumber close) (rest : List Char)
    (texts : List (List Char)) : EndsNumber (following close rest texts) := by
  cases texts with
  | nil => exact endsNumber_cons hclose _
  | cons t texts => exact endsNumber_cons (by decide) _

/-! ### What is skipped is a value -/

/-- Go on behind an element. -/
def skipFurtherElements (n : Nat) (cs : List Char) : Except Flaw (List Char) :=
  match skipBlank cs with
  | ',' :: rest => skipElements n rest
  | ']' :: rest => .ok rest
  | [] => .error .ended
  | _ => .error .malformed

/-- Go on behind a member. -/
def skipFurtherMembers (n : Nat) (cs : List Char) : Except Flaw (List Char) :=
  match skipBlank cs with
  | ',' :: rest => skipMembers n rest
  | '\x7d' :: rest => .ok rest
  | [] => .error .ended
  | _ => .error .malformed

/-- What is skipped as a value with the given bound is one. -/
def ValuesFormed (n : Nat) : Prop :=
  ∀ cs rest, skipValueUpTo n cs = .ok rest → ∃ b s, Blank b ∧ WellFormed s ∧ cs = b ++ (s ++ rest)

/-- What is skipped as elements with the given bound are elements, at least one. -/
def ElementsFormed (n : Nat) : Prop :=
  ∀ cs rest, skipElements n cs = .ok rest → ∃ e es, (∀ x ∈ e :: es, x.Spaced) ∧
    (∀ x ∈ e :: es, WellFormed x.value) ∧
    cs = separated ((e :: es).map Element.text) ++ ']' :: rest

/-- What is skipped as members with the given bound are members, at least one. -/
def MembersFormed (n : Nat) : Prop :=
  ∀ cs rest, skipMembers n cs = .ok rest → ∃ m ms, (∀ x ∈ m :: ms, x.Spaced) ∧
    (∀ x ∈ m :: ms, SpellsString x.name) ∧ (∀ x ∈ m :: ms, WellFormed x.element.value) ∧
    cs = separated ((m :: ms).map Member.text) ++ '\x7d' :: rest

theorem valuesFormed_succ {n : Nat} (helements : ElementsFormed n) (hmembers : MembersFormed n) :
    ValuesFormed (n + 1) := by
  intro cs rest h
  obtain ⟨b, hb, hcs⟩ := exists_blank cs
  suffices hvalue : ∃ s, WellFormed s ∧ skipBlank cs = s ++ rest by
    obtain ⟨s, hs, hskip⟩ := hvalue
    exact ⟨b, s, hb, hs, hskip ▸ hcs⟩
  rw [skipValueUpTo] at h
  split at h <;> rename_i hfront
  · cases h
  · exact ⟨_, .null, hfront.trans (congrArg _ (readLetters_iff.1 h))⟩
  · exact ⟨_, .true, hfront.trans (congrArg _ (readLetters_iff.1 h))⟩
  · exact ⟨_, .false, hfront.trans (congrArg _ (readLetters_iff.1 h))⟩
  · obtain ⟨s, hs, rfl⟩ := skipString_iff.1 h
    exact ⟨_, .string hs, by rw [hfront, List.cons_append, List.append_assoc, List.singleton_append]⟩
  · obtain ⟨s, hs, rfl⟩ := spells_of_skipNumber h
    exact ⟨_, .number (.negative hs), hfront⟩
  · rename_i inner
    obtain ⟨b', hb', hinner⟩ := exists_blank inner
    split at h
    · rename_i hclose
      cases h
      refine ⟨_, .array hb' (List.forall_mem_nil _) (List.forall_mem_nil _), ?_⟩
      rw [hfront, hinner, hclose]
      simp [arrayText, separated]
    · cases h
    · obtain ⟨e, es, hspaced, hvalues, hes⟩ := helements _ _ h
      refine ⟨_, .array hb' hspaced hvalues, ?_⟩
      rw [hfront, hinner, hes]
      simp [arrayText]
  · rename_i inner
    obtain ⟨b', hb', hinner⟩ := exists_blank inner
    split at h
    · rename_i hclose
      cases h
      refine ⟨_, .object hb' (List.forall_mem_nil _) (List.forall_mem_nil _) (List.forall_mem_nil _), ?_⟩
      rw [hfront, hinner, hclose]
      simp [objectText, separated]
    · obtain ⟨m, ms, hspaced, hnames, hvalues, hms⟩ := hmembers _ _ h
      refine ⟨_, .object hb' hspaced hnames hvalues, ?_⟩
      rw [hfront, hinner, hms]
      simp [objectText]
  · obtain ⟨s, hs, hskip⟩ := spells_of_skipNumber h
    exact ⟨s, .number (.positive hs), hskip⟩

/-- What is skipped behind an element are the elements that follow it. -/
theorem formed_of_skipFurtherElements {n : Nat} (helements : ElementsFormed n) {cs rest : List Char}
    (h : skipFurtherElements n cs = .ok rest) :
    ∃ (b : List Char) (es : List Element), Blank b ∧ (∀ e ∈ es, e.Spaced) ∧
      (∀ e ∈ es, WellFormed e.value) ∧ cs = b ++ following ']' rest (es.map Element.text) := by
  rw [skipFurtherElements] at h
  split at h
  · rename_i hcomma
    obtain ⟨b, hb, rfl⟩ := (skipBlank_eq_cons (by decide)).1 hcomma
    obtain ⟨e, es, hspaced, hformed, rfl⟩ := helements _ _ h
    exact ⟨b, e :: es, hb, hspaced, hformed, rfl⟩
  · rename_i hclose
    cases h
    obtain ⟨b, hb, rfl⟩ := (skipBlank_eq_cons (by decide)).1 hclose
    exact ⟨b, [], hb, List.forall_mem_nil _, List.forall_mem_nil _, rfl⟩
  · cases h
  · cases h

theorem elementsFormed_succ {n : Nat} (hvalues : ValuesFormed n) (helements : ElementsFormed n) :
    ElementsFormed (n + 1) := by
  intro cs rest h
  rw [skipElements] at h
  split at h
  · cases h
  · rename_i hvalue
    obtain ⟨b, s, hb, hs, rfl⟩ := hvalues _ _ hvalue
    obtain ⟨b', es, hb', hspaced, hformed, rfl⟩ := formed_of_skipFurtherElements helements h
    refine ⟨⟨b, s, b'⟩, es, List.forall_mem_cons.2 ⟨⟨hb, hb'⟩, hspaced⟩,
      List.forall_mem_cons.2 ⟨hs, hformed⟩, ?_⟩
    rw [List.map_cons, separated_append, Element.text, List.append_assoc, List.append_assoc]

/-- What is skipped behind a member are the members that follow it. -/
theorem formed_of_skipFurtherMembers {n : Nat} (hmembers : MembersFormed n) {cs rest : List Char}
    (h : skipFurtherMembers n cs = .ok rest) :
    ∃ (b : List Char) (ms : List Member), Blank b ∧ (∀ m ∈ ms, m.Spaced) ∧
      (∀ m ∈ ms, SpellsString m.name) ∧ (∀ m ∈ ms, WellFormed m.element.value) ∧
      cs = b ++ following '\x7d' rest (ms.map Member.text) := by
  rw [skipFurtherMembers] at h
  split at h
  · rename_i hcomma
    obtain ⟨b, hb, rfl⟩ := (skipBlank_eq_cons (by decide)).1 hcomma
    obtain ⟨m, ms, hspaced, hnames, hformed, rfl⟩ := hmembers _ _ h
    exact ⟨b, m :: ms, hb, hspaced, hnames, hformed, rfl⟩
  · rename_i hclose
    cases h
    obtain ⟨b, hb, rfl⟩ := (skipBlank_eq_cons (by decide)).1 hclose
    exact ⟨b, [], hb, List.forall_mem_nil _, List.forall_mem_nil _, List.forall_mem_nil _, rfl⟩
  · cases h
  · cases h

theorem membersFormed_succ {n : Nat} (hvalues : ValuesFormed n) (hmembers : MembersFormed n) :
    MembersFormed (n + 1) := by
  intro cs rest h
  rw [skipMembers] at h
  split at h
  · cases h
  · rename_i hopen
    obtain ⟨b, hb, rfl⟩ := openName_iff.1 hopen
    split at h
    · cases h
    · rename_i hname
      obtain ⟨name, hn, rfl⟩ := skipString_iff.1 hname
      split at h
      · cases h
      · rename_i hcolon
        obtain ⟨between, hbetween, rfl⟩ := readColon_iff.1 hcolon
        split at h
        · cases h
        · rename_i hvalue
          obtain ⟨front, s, hfront, hs, rfl⟩ := hvalues _ _ hvalue
          obtain ⟨b', ms, hb', hspaced, hnames, hformed, rfl⟩ :=
            formed_of_skipFurtherMembers hmembers h
          refine ⟨⟨b, name, between, front, s, b'⟩, ms,
            List.forall_mem_cons.2 ⟨⟨hb, hbetween, hfront, hb'⟩, hspaced⟩,
            List.forall_mem_cons.2 ⟨hn, hnames⟩, List.forall_mem_cons.2 ⟨hs, hformed⟩, ?_⟩
          rw [List.map_cons, separated_append]
          simp [Member.text, Element.text]

theorem formed (n : Nat) : ValuesFormed n ∧ ElementsFormed n ∧ MembersFormed n := by
  -- The three readers call each other with the bound one lower, so the bound carries all of them.
  induction n with
  | zero =>
    refine ⟨?_, ?_, ?_⟩
    · intro cs rest h
      cases h
    · intro cs rest h
      cases h
    · intro cs rest h
      cases h
  | succ n ih =>
    obtain ⟨hvalues, helements, hmembers⟩ := ih
    exact ⟨valuesFormed_succ helements hmembers, elementsFormed_succ hvalues helements,
      membersFormed_succ hvalues hmembers⟩

/-- What is skipped as a value is one, behind white space. -/
theorem wellFormed_of_skipValue {cs rest : List Char} (h : skipValue cs = .ok rest) :
    ∃ b s, Blank b ∧ WellFormed s ∧ cs = b ++ (s ++ rest) := (formed _).1 cs rest h

/-! ### Every value is skipped -/

/-- Wherever a value stands, it is skipped as a whole if the bound allows two steps for each character. -/
def Skips (s : List Char) : Prop :=
  ∀ n b rest, Blank b → EndsNumber rest → 2 * (b ++ (s ++ rest)).length < n →
    skipValueUpTo n (b ++ (s ++ rest)) = .ok rest

theorem skipBlank_front {b : List Char} (hb : Blank b) {c : Char} (hc : isBlank c = false)
    (cs : List Char) : skipBlank (b ++ c :: cs) = c :: cs := (skipBlank_eq_cons hc).2 ⟨b, hb, rfl⟩

theorem skipValueUpTo_skipBlank (n : Nat) (cs : List Char) :
    skipValueUpTo n (skipBlank cs) = skipValueUpTo n cs := by
  cases n with
  | zero => rfl
  | succ n => rw [skipValueUpTo, skipValueUpTo, skipBlank_skipBlank]

theorem skipElements_skipBlank (n : Nat) (cs : List Char) :
    skipElements n (skipBlank cs) = skipElements n cs := by
  cases n with
  | zero => rfl
  | succ n => rw [skipElements, skipElements, skipValueUpTo_skipBlank]

theorem openName_skipBlank (cs : List Char) : openName (skipBlank cs) = openName cs := by
  rw [openName, openName, skipBlank_skipBlank]

theorem skipMembers_skipBlank (n : Nat) (cs : List Char) :
    skipMembers n (skipBlank cs) = skipMembers n cs := by
  cases n with
  | zero => rfl
  | succ n => rw [skipMembers, skipMembers, openName_skipBlank]

/-- A value is skipped if it is skipped behind the white space in front of it. -/
theorem skips_cons {c : Char} {s : List Char} (hc : isBlank c = false)
    (h : ∀ n cs rest, EndsNumber rest → 2 * (s ++ rest).length + 1 < n →
      skipBlank cs = c :: (s ++ rest) → skipValueUpTo (n + 1) cs = .ok rest) : Skips (c :: s) := by
  intro n b rest hb hrest hn
  obtain ⟨n, rfl⟩ := Nat.exists_eq_add_one_of_ne_zero (Nat.ne_zero_of_lt hn)
  simp only [List.length_append, List.length_cons] at hn
  refine h n _ rest hrest ?_ (skipBlank_front hb hc _)
  rw [List.length_append]
  omega

/-- A word is skipped if its first letter has the reader go on with the others. -/
theorem skips_word {c : Char} {letters : List Char} (hc : isBlank c = false)
    (h : ∀ n rest, skipValueUpTo (n + 1) (c :: rest) = readLetters letters rest) :
    Skips (c :: letters) := by
  refine skips_cons hc fun n cs rest _ _ hfront => ?_
  rw [← skipValueUpTo_skipBlank, hfront, h]
  exact readLetters_iff.2 rfl

theorem skips_string {s : List Char} (hs : SpellsString s) : Skips ('"' :: (s ++ ['"'])) := by
  refine skips_cons (by decide) fun n cs rest _ _ hfront => ?_
  rw [skipValueUpTo, hfront]
  exact skipString_iff.2 ⟨s, hs, List.append_assoc _ _ _⟩

/-- A number without sign starts with a digit. -/
theorem SpellsMagnitude.exists_digit {s : List Char} (hs : SpellsMagnitude s) :
    ∃ c t, c.isDigit = true ∧ s = c :: t := by
  obtain ⟨hw, -, -⟩ := hs
  obtain ⟨c, t, hc, rfl⟩ := hw.exists_digit
  exact ⟨c, _, hc, rfl⟩

theorem isBlank_of_isDigit {c : Char} (hc : c.isDigit = true) : isBlank c = false := by
  rw [Bool.eq_false_iff]
  intro hblank
  simp only [isBlank, Bool.or_eq_true, beq_iff_eq] at hblank
  obtain ((rfl | rfl) | rfl) | rfl := hblank <;> cases hc

theorem skips_magnitude {s : List Char} (hs : SpellsMagnitude s) : Skips s := by
  obtain ⟨c, t, hc, rfl⟩ := hs.exists_digit
  refine skips_cons (isBlank_of_isDigit hc) fun n cs rest hrest _ hfront => ?_
  have hskip : skipNumber (c :: (t ++ rest)) = .ok rest := skipNumber_of_spells hs hrest
  rw [skipValueUpTo, hfront]
  split <;> rename_i heq
  · cases heq
  · cases heq
    cases hc
  · cases heq
    cases hc
  · cases heq
    cases hc
  · cases heq
    cases hc
  · cases heq
    cases hc
  · cases heq
    cases hc
  · cases heq
    cases hc
  · exact hskip

theorem skips_number {s : List Char} (hs : SpellsNumber s) : Skips s := by
  cases hs with
  | positive hs => exact skips_magnitude hs
  | negative hs =>
    refine skips_cons (by decide) fun n cs rest hrest _ hfront => ?_
    rw [skipValueUpTo, hfront]
    exact skipNumber_of_spells hs hrest

/-- Texts with commas between them are skipped up to the closing mark if each of them is skipped up to
the mark behind it. -/
theorem skip_separated {β : Type} {text : β → List Char} {close : Char}
    (hclose : CutsNumber close)
    {skip further : Nat → List Char → Except Flaw (List Char)}
    (hcomma : ∀ n rest, further n (',' :: rest) = skip n rest)
    (hend : ∀ n rest, further n (close :: rest) = .ok rest) {x : β} {xs : List β}
    (hskip : ∀ y ∈ x :: xs, ∀ n rest, EndsNumber rest → 2 * (text y ++ rest).length < n →
      skip (n + 1) (text y ++ rest) = further n rest) {n : Nat} (rest : List Char)
    (hn : 2 * (separated ((x :: xs).map text) ++ close :: rest).length + 1 < n) :
    skip n (separated ((x :: xs).map text) ++ close :: rest) = .ok rest := by
  induction xs generalizing x n with
  | nil =>
    obtain ⟨n, rfl⟩ := Nat.exists_eq_add_one_of_ne_zero (Nat.ne_zero_of_lt hn)
    obtain ⟨hx, -⟩ := List.forall_mem_cons.1 hskip
    rw [List.map_cons, separated_append] at hn ⊢
    rw [hx n _ (endsNumber_following hclose _ _) (by omega)]
    exact hend n rest
  | cons y xs ih =>
    obtain ⟨n, rfl⟩ := Nat.exists_eq_add_one_of_ne_zero (Nat.ne_zero_of_lt hn)
    obtain ⟨hx, hxs⟩ := List.forall_mem_cons.1 hskip
    rw [List.map_cons, separated_append] at hn ⊢
    rw [hx n _ (endsNumber_following hclose _ _) (by omega), List.map_cons, following, hcomma]
    refine ih hxs ?_
    -- The comma pays for the step from one text to the next.
    rw [List.length_append, List.map_cons, following, List.length_cons] at hn
    rw [List.map_cons]
    omega

theorem skipValueUpTo_element {e : Element} (he : e.Spaced) (hs : Skips e.value) {n : Nat}
    {rest : List Char} (hrest : EndsNumber rest) (hn : 2 * (e.text ++ rest).length < n) :
    skipValueUpTo n (e.text ++ rest) = .ok (e.after ++ rest) := by
  rw [Element.text, List.append_assoc, List.append_assoc] at hn ⊢
  exact hs n _ _ he.before (endsNumber_append he.after hrest) hn

/-- An element is skipped, and the skipping goes on behind it. -/
theorem skipElements_element {e : Element} (he : e.Spaced) (hs : Skips e.value) {n : Nat}
    {rest : List Char} (hrest : EndsNumber rest) (hn : 2 * (e.text ++ rest).length < n) :
    skipElements (n + 1) (e.text ++ rest) = skipFurtherElements n rest := by
  have hvalue := skipValueUpTo_element he hs hrest hn
  have hfurther : skipElements (n + 1) (e.text ++ rest) = skipFurtherElements n (e.after ++ rest) := by
    rw [skipElements, hvalue]
    rfl
  rw [hfurther, skipFurtherElements, skipFurtherElements, skipBlank_append he.after]

/-- The elements of an array are skipped up to its closing bracket. -/
theorem skipElements_of_skips {e : Element} {es : List Element} (hspaced : ∀ x ∈ e :: es, x.Spaced)
    (hskips : ∀ x ∈ e :: es, Skips x.value) {n : Nat} (rest : List Char)
    (hn : 2 * (separated ((e :: es).map Element.text) ++ ']' :: rest).length + 1 < n) :
    skipElements n (separated ((e :: es).map Element.text) ++ ']' :: rest) = .ok rest := by
  have hcomma : ∀ n rest, skipFurtherElements n (',' :: rest) = skipElements n rest := fun _ _ => rfl
  have hend : ∀ n rest, skipFurtherElements n (']' :: rest) = .ok rest := fun _ _ => rfl
  refine skip_separated (by decide) hcomma hend ?_ rest hn
  intro x hx n rest hrest hn
  exact skipElements_element (hspaced x hx) (hskips x hx) hrest hn

/-- No element starts with a closing bracket. -/
theorem skipElements_bracket (n : Nat) (cs rest : List Char) : skipElements n (']' :: cs) ≠ .ok rest := by
  cases n with
  | zero => exact nofun
  | succ n =>
    cases n with
    | zero => exact nofun
    | succ n =>
      rw [skipElements, skipValueUpTo, skipBlank_cons (by decide)]
      exact nofun

theorem skipElements_nil (n : Nat) (rest : List Char) : skipElements n [] ≠ .ok rest := by
  cases n with
  | zero => exact nofun
  | succ n =>
    cases n with
    | zero => exact nofun
    | succ n => exact nofun

theorem skips_array {blank : List Char} {es : List Element} (hblank : Blank blank)
    (hspaced : ∀ e ∈ es, e.Spaced) (hskips : ∀ e ∈ es, Skips e.value) : Skips (arrayText blank es) := by
  refine skips_cons (by decide) fun n cs rest _ hn hfront => ?_
  rw [List.append_assoc, List.append_assoc, List.singleton_append] at hn hfront
  rw [skipValueUpTo, hfront]
  cases es with
  | nil =>
    have hclose : skipBlank (blank ++ (separated [] ++ ']' :: rest)) = ']' :: rest :=
      skipBlank_front hblank (by decide) rest
    simp only [List.map_nil, hclose]
  | cons e es =>
    rw [List.length_append] at hn
    have hskip := skipElements_of_skips hspaced hskips rest (show _ < n by omega)
    rw [← skipElements_skipBlank, ← skipBlank_append hblank] at hskip
    simp only
    split
    · rename_i hclose
      rw [hclose] at hskip
      exact absurd hskip (skipElements_bracket n _ _)
    · rename_i hend
      rw [hend] at hskip
      exact absurd hskip (skipElements_nil n _)
    · exact hskip

/-! ### Members of an object -/

/-- The name of a member starts behind the white space in front of it. -/
theorem Member.Spaced.openName {m : Member} (hm : m.Spaced) (rest : List Char) :
    Json.openName (m.text ++ rest) =
      .ok (m.name ++ '"' :: (m.between ++ ':' :: (m.element.text ++ rest))) :=
  openName_iff.2 ⟨m.before, hm.before, by simp [Member.text]⟩

/-- The value of a member stands behind a colon. -/
theorem Member.Spaced.readColon {m : Member} (hm : m.Spaced) (rest : List Char) :
    Json.readColon (m.between ++ ':' :: (m.element.text ++ rest)) = .ok (m.element.text ++ rest) :=
  readColon_iff.2 ⟨m.between, hm.between, rfl⟩

/-- A member is skipped, and the skipping goes on behind it. -/
theorem skipMembers_member {m : Member} (hm : m.Spaced) (hname : SpellsString m.name)
    (hs : Skips m.element.value) {n : Nat} {rest : List Char} (hrest : EndsNumber rest)
    (hn : 2 * (m.text ++ rest).length < n) :
    skipMembers (n + 1) (m.text ++ rest) = skipFurtherMembers n rest := by
  have hskip : skipString (m.name ++ '"' :: (m.between ++ ':' :: (m.element.text ++ rest))) =
      .ok (m.between ++ ':' :: (m.element.text ++ rest)) := skipString_iff.2 ⟨m.name, hname, rfl⟩
  have hlength : (m.element.text ++ rest).length ≤ (m.text ++ rest).length := by
    simp only [Member.text, List.length_append, List.length_cons]
    omega
  have hvalue := skipValueUpTo_element hm.element hs hrest (show _ < n by omega)
  have hfurther : skipMembers (n + 1) (m.text ++ rest) =
      skipFurtherMembers n (m.element.after ++ rest) := by
    rw [skipMembers, hm.openName]
    simp only [hskip, hm.readColon, hvalue]
    rfl
  rw [hfurther, skipFurtherMembers, skipFurtherMembers, skipBlank_append hm.element.after]

/-- The members of an object are skipped up to its closing brace. -/
theorem skipMembers_of_skips {m : Member} {ms : List Member} (hspaced : ∀ x ∈ m :: ms, x.Spaced)
    (hnames : ∀ x ∈ m :: ms, SpellsString x.name) (hskips : ∀ x ∈ m :: ms, Skips x.element.value)
    {n : Nat} (rest : List Char)
    (hn : 2 * (separated ((m :: ms).map Member.text) ++ '\x7d' :: rest).length + 1 < n) :
    skipMembers n (separated ((m :: ms).map Member.text) ++ '\x7d' :: rest) = .ok rest := by
  have hcomma : ∀ n rest, skipFurtherMembers n (',' :: rest) = skipMembers n rest := fun _ _ => rfl
  have hend : ∀ n rest, skipFurtherMembers n ('\x7d' :: rest) = .ok rest := fun _ _ => rfl
  refine skip_separated (by decide) hcomma hend ?_ rest hn
  intro x hx n rest hrest hn
  exact skipMembers_member (hspaced x hx) (hnames x hx) (hskips x hx) hrest hn

/-- No member starts with a closing brace. -/
theorem skipMembers_brace (n : Nat) (cs rest : List Char) : skipMembers n ('\x7d' :: cs) ≠ .ok rest := by
  cases n with
  | zero => exact nofun
  | succ n =>
    rw [skipMembers, openName, skipBlank_cons (by decide)]
    exact nofun

theorem skips_object {blank : List Char} {ms : List Member} (hblank : Blank blank)
    (hspaced : ∀ m ∈ ms, m.Spaced) (hnames : ∀ m ∈ ms, SpellsString m.name)
    (hskips : ∀ m ∈ ms, Skips m.element.value) : Skips (objectText blank ms) := by
  refine skips_cons (by decide) fun n cs rest _ hn hfront => ?_
  rw [List.append_assoc, List.append_assoc, List.singleton_append] at hn hfront
  rw [skipValueUpTo, hfront]
  cases ms with
  | nil =>
    have hclose : skipBlank (blank ++ (separated [] ++ '\x7d' :: rest)) = '\x7d' :: rest :=
      skipBlank_front hblank (by decide) rest
    simp only [List.map_nil, hclose]
  | cons m ms =>
    rw [List.length_append] at hn
    have hskip := skipMembers_of_skips hspaced hnames hskips rest (show _ < n by omega)
    rw [← skipMembers_skipBlank, ← skipBlank_append hblank] at hskip
    simp only
    split
    · rename_i hclose
      rw [hclose] at hskip
      exact absurd hskip (skipMembers_brace n _ _)
    · exact hskip

theorem WellFormed.skips {s : List Char} (hs : WellFormed s) : Skips s := by
  induction hs with
  | null => exact skips_word (c := 'n') (by decide) fun _ _ => rfl
  | true => exact skips_word (c := 't') (by decide) fun _ _ => rfl
  | false => exact skips_word (c := 'f') (by decide) fun _ _ => rfl
  | string hs => exact skips_string hs
  | number hs => exact skips_number hs
  | array hblank hspaced _ ih => exact skips_array hblank hspaced ih
  | object hblank hspaced hnames _ ih => exact skips_object hblank hspaced hnames ih

/-- Every value is skipped as a whole, with the white space in front of it, as long as nothing continues
a number at its end. -/
theorem WellFormed.skipValue {b s rest : List Char} (hs : WellFormed s) (hb : Blank b)
    (hrest : EndsNumber rest) : Json.skipValue (b ++ (s ++ rest)) = .ok rest := by
  exact hs.skips _ b rest hb hrest (by omega)

end SlotChain.Json

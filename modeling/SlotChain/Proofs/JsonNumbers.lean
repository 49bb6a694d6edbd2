import Mathlib.Data.List.TakeDrop
import Mathlib.Data.List.TakeWhile
import SlotChain.Json.Number
import SlotChain.Json.Skip
import SlotChain.Proofs.JsonStrings
import SlotChain.Proofs.Numerals

/-!
# The grammar of JSON numbers

A number has a whole part, which starts with no superfluous zero, and it may have a fraction and an
exponent. A reader stops at the first character that the number cannot go on with, so it takes the number
apart from whatever follows as long as that does not continue it. A whole part by itself is read for its
value as long as that fits into a machine word.
-/

namespace SlotChain.Json

/-! ### Spellings -/

/-- Decimal digits, at least one of them. -/
structure SpellsDigits (s : List Char) : Prop where
  /-- There is a digit. -/
  ne_nil : s ≠ []
  /-- There is nothing else. -/
  digits : ∀ c ∈ s, c.isDigit = true

/-- The whole part of a number. A leading zero stands by itself. -/
inductive SpellsWhole : List Char → Prop
  | zero : SpellsWhole ['0']
  | digits {c : Char} {s : List Char} (hc : c.isDigit = true) (hzero : c ≠ '0')
    (hs : ∀ d ∈ s, d.isDigit = true) : SpellsWhole (c :: s)

/-- The fraction of a number, which may be missing. -/
inductive SpellsFraction : List Char → Prop
  | none : SpellsFraction []
  | some {s : List Char} (hs : SpellsDigits s) : SpellsFraction ('.' :: s)

/-- The sign of an exponent, which may be missing. -/
inductive SpellsSign : List Char → Prop
  | none : SpellsSign []
  | plus : SpellsSign ['+']
  | minus : SpellsSign ['-']

/-- The exponent of a number, which may be missing. -/
inductive SpellsExponent : List Char → Prop
  | none : SpellsExponent []
  | some {e : Char} {sign s : List Char} (he : e = 'e' ∨ e = 'E') (hsign : SpellsSign sign)
    (hs : SpellsDigits s) : SpellsExponent (e :: (sign ++ s))

/-- A number without its sign. -/
inductive SpellsMagnitude : List Char → Prop
  | parts {whole fraction exponent : List Char} (hw : SpellsWhole whole)
    (hf : SpellsFraction fraction) (he : SpellsExponent exponent) :
    SpellsMagnitude (whole ++ (fraction ++ exponent))

/-- A number. -/
inductive SpellsNumber : List Char → Prop
  | positive {s : List Char} (hs : SpellsMagnitude s) : SpellsNumber s
  | negative {s : List Char} (hs : SpellsMagnitude s) : SpellsNumber ('-' :: s)

/-- An integer literal and its value: a number without sign, fraction and exponent. -/
structure SpellsInteger (s : List Char) (n : Nat) : Prop where
  /-- It is a whole part and nothing else. -/
  whole : SpellsWhole s
  /-- Its digits denote the value. -/
  value : Nat.ofDigitChars 10 s 0 = n

/-- A character does not continue a number in front of it. -/
def CutsNumber (c : Char) : Prop := c.isDigit = false ∧ c ≠ '.' ∧ c ≠ 'e' ∧ c ≠ 'E'

instance (c : Char) : Decidable (CutsNumber c) :=
  inferInstanceAs (Decidable (c.isDigit = false ∧ c ≠ '.' ∧ c ≠ 'e' ∧ c ≠ 'E'))

/-- A text does not continue a number in front of it. -/
def EndsNumber (rest : List Char) : Prop := ∀ c ∈ rest.head?, CutsNumber c

/-! ### Digits -/

theorem EndsNumber.startsWithDigit {rest : List Char} (h : EndsNumber rest) :
    startsWithDigit rest = false := by
  cases rest with
  | nil => rfl
  | cons c cs => exact (h c rfl).1

theorem SpellsDigits.startsWithDigit {s : List Char} (h : SpellsDigits s) (rest : List Char) :
    startsWithDigit (s ++ rest) = true := by
  obtain ⟨hne, hdigits⟩ := h
  cases s with
  | nil => exact absurd rfl hne
  | cons c cs => exact hdigits c List.mem_cons_self

theorem skipDigits_append {s rest : List Char} (hs : ∀ c ∈ s, c.isDigit = true)
    (hrest : startsWithDigit rest = false) : skipDigits (s ++ rest) = rest := by
  rw [skipDigits, List.dropWhile_append_of_pos hs]
  cases rest with
  | nil => rfl
  | cons c cs => exact List.dropWhile_cons_of_neg (ne_true_of_eq_false hrest)

/-- The digits that are skipped. -/
theorem exists_digits (cs : List Char) :
    ∃ s, (∀ c ∈ s, c.isDigit = true) ∧ cs = s ++ skipDigits cs :=
  ⟨cs.takeWhile Char.isDigit, fun _ hc => List.mem_takeWhile_imp hc,
    List.takeWhile_append_dropWhile.symm⟩

theorem exists_spellsDigits {cs : List Char} (h : startsWithDigit cs = true) :
    ∃ s, SpellsDigits s ∧ cs = s ++ skipDigits cs := by
  cases cs with
  | nil => cases h
  | cons c cs =>
    obtain ⟨s, hs, hcs⟩ := exists_digits cs
    have hskip : skipDigits (c :: cs) = skipDigits cs := List.dropWhile_cons_of_pos h
    refine ⟨c :: s, ⟨List.cons_ne_nil _ _, List.forall_mem_cons.2 ⟨h, hs⟩⟩, ?_⟩
    rw [hskip, List.cons_append, ← hcs]

theorem startsWithDigit_skipDigits (cs : List Char) : startsWithDigit (skipDigits cs) = false := by
  induction cs with
  | nil => rfl
  | cons c cs ih =>
    rw [skipDigits, List.dropWhile_cons]
    split
    · exact ih
    · rename_i hc
      exact eq_false_of_ne_true hc

theorem takeDigits_append {s rest : List Char} (hs : ∀ c ∈ s, c.isDigit = true)
    (hrest : startsWithDigit rest = false) : takeDigits (s ++ rest) = (s, rest) := by
  have hskip := skipDigits_append hs hrest
  rw [takeDigits, List.span_eq_takeWhile_dropWhile, List.takeWhile_append_of_pos hs]
  cases rest with
  | nil => exact Prod.ext (List.append_nil s) hskip
  | cons c cs =>
    have hc : ¬ c.isDigit = true := ne_true_of_eq_false hrest
    rw [List.takeWhile_cons_of_neg hc, List.append_nil]
    exact Prod.ext rfl hskip

/-- A whole part starts with a digit. -/
theorem SpellsWhole.exists_digit {s : List Char} (hs : SpellsWhole s) :
    ∃ c t, c.isDigit = true ∧ s = c :: t := by
  cases hs with
  | zero => exact ⟨'0', [], rfl, rfl⟩
  | digits hc _ _ => exact ⟨_, _, hc, rfl⟩

/-! ### Numbers that are skipped -/

/-- What stands behind the sign of an exponent. -/
def behindSign : List Char → List Char
  | '+' :: cs => cs
  | '-' :: cs => cs
  | cs => cs

theorem skipExponent_cons (e : Char) (cs : List Char) :
    skipExponent (e :: cs) =
      if e = 'e' ∨ e = 'E' then
        if startsWithDigit (behindSign cs) then .ok (skipDigits (behindSign cs)) else .error .malformed
      else .ok (e :: cs) := rfl

theorem exists_spellsSign (cs : List Char) : ∃ sign, SpellsSign sign ∧ cs = sign ++ behindSign cs := by
  unfold behindSign
  split
  · exact ⟨_, .plus, rfl⟩
  · exact ⟨_, .minus, rfl⟩
  · exact ⟨_, .none, rfl⟩

theorem behindSign_append {sign cs : List Char} (hsign : SpellsSign sign)
    (hcs : startsWithDigit cs = true) : behindSign (sign ++ cs) = cs := by
  cases hsign with
  | none =>
    rw [List.nil_append]
    unfold behindSign
    split
    · cases hcs
    · cases hcs
    · rfl
  | plus => rfl
  | minus => rfl

theorem skipExponent_of_spells {s rest : List Char} (hs : SpellsExponent s)
    (hrest : EndsNumber rest) : skipExponent (s ++ rest) = .ok rest := by
  cases hs with
  | none =>
    cases rest with
    | nil => rfl
    | cons c cs =>
      obtain ⟨-, -, he, hE⟩ := hrest c rfl
      rw [List.nil_append, skipExponent_cons, if_neg (not_or.2 ⟨he, hE⟩)]
  | some he hsign hs =>
    have hstart := hs.startsWithDigit rest
    rw [List.cons_append, List.append_assoc, skipExponent_cons, if_pos he,
      behindSign_append hsign hstart, if_pos hstart,
      skipDigits_append hs.digits hrest.startsWithDigit]

theorem spells_of_skipExponent {cs rest : List Char} (h : skipExponent cs = .ok rest) :
    ∃ s, SpellsExponent s ∧ cs = s ++ rest := by
  cases cs with
  | nil =>
    cases h
    exact ⟨[], .none, rfl⟩
  | cons e cs =>
    rw [skipExponent_cons] at h
    split at h
    · rename_i he
      split at h
      · rename_i hstart
        cases h
        obtain ⟨sign, hsign, hcs⟩ := exists_spellsSign cs
        obtain ⟨s, hs, hdigits⟩ := exists_spellsDigits hstart
        refine ⟨_, .some he hsign hs, ?_⟩
        rw [List.cons_append, List.append_assoc, ← hdigits, ← hcs]
      · cases h
    · cases h
      exact ⟨[], .none, rfl⟩

theorem SpellsExponent.startsWithDigit {s rest : List Char} (hs : SpellsExponent s)
    (hrest : EndsNumber rest) : startsWithDigit (s ++ rest) = false := by
  cases hs with
  | none => exact hrest.startsWithDigit
  | some he _ _ => obtain rfl | rfl := he <;> rfl

theorem SpellsExponent.ne_point {s rest : List Char} (hs : SpellsExponent s)
    (hrest : EndsNumber rest) (cs : List Char) : s ++ rest ≠ '.' :: cs := by
  intro h
  cases hs with
  | none =>
    rw [List.nil_append] at h
    rw [h] at hrest
    exact (hrest '.' rfl).2.1 rfl
  | some he _ _ =>
    cases h
    revert he
    decide

theorem SpellsFraction.startsWithDigit {fraction exponent rest : List Char}
    (hf : SpellsFraction fraction) (he : SpellsExponent exponent) (hrest : EndsNumber rest) :
    Json.startsWithDigit (fraction ++ (exponent ++ rest)) = false := by
  cases hf with
  | none => exact he.startsWithDigit hrest
  | some _ => rfl

theorem skipFraction_of_spells {fraction exponent rest : List Char} (hf : SpellsFraction fraction)
    (he : SpellsExponent exponent) (hrest : EndsNumber rest) :
    skipFraction (fraction ++ (exponent ++ rest)) = .ok rest := by
  have hskip := skipExponent_of_spells he hrest
  cases hf with
  | none => rw [List.nil_append, skipFraction.eq_2 _ (he.ne_point hrest), hskip]
  | some hs =>
    rw [List.cons_append, skipFraction, if_pos (hs.startsWithDigit _),
      skipDigits_append hs.digits (he.startsWithDigit hrest), hskip]

theorem spells_of_skipFraction {cs rest : List Char} (h : skipFraction cs = .ok rest) :
    ∃ fraction exponent, SpellsFraction fraction ∧ SpellsExponent exponent ∧
      cs = fraction ++ (exponent ++ rest) := by
  unfold skipFraction at h
  split at h
  · split at h
    · rename_i hstart
      obtain ⟨s, hs, hcs⟩ := exists_spellsDigits hstart
      obtain ⟨exponent, he, hexponent⟩ := spells_of_skipExponent h
      refine ⟨_, exponent, .some hs, he, ?_⟩
      rw [List.cons_append, ← hexponent, ← hcs]
    · cases h
  · obtain ⟨exponent, he, rfl⟩ := spells_of_skipExponent h
    exact ⟨[], exponent, .none, he, rfl⟩

/-- A number is skipped as far as it goes. -/
theorem skipNumber_of_spells {s rest : List Char} (hs : SpellsMagnitude s) (hrest : EndsNumber rest) :
    skipNumber (s ++ rest) = .ok rest := by
  obtain ⟨hw, hf, he⟩ := hs
  have hskip := skipFraction_of_spells hf he hrest
  have hend := hf.startsWithDigit he hrest
  rw [List.append_assoc, List.append_assoc]
  cases hw with
  | zero => rw [List.singleton_append, skipNumber, hend, if_neg Bool.false_ne_true, hskip]
  | digits hc hzero hs =>
    rw [List.cons_append, skipNumber.eq_2 _ _ hzero, if_pos hc, skipDigits_append hs hend, hskip]

/-- What is skipped as a number is one. -/
theorem spells_of_skipNumber {cs rest : List Char} (h : skipNumber cs = .ok rest) :
    ∃ s, SpellsMagnitude s ∧ cs = s ++ rest := by
  unfold skipNumber at h
  split at h
  · split at h
    · cases h
    · obtain ⟨fraction, exponent, hf, he, rfl⟩ := spells_of_skipFraction h
      exact ⟨_, .parts .zero hf he, by simp⟩
  · rename_i c cs hzero
    split at h
    · rename_i hc
      obtain ⟨s, hs, hcs⟩ := exists_digits cs
      obtain ⟨fraction, exponent, hf, he, hskip⟩ := spells_of_skipFraction h
      refine ⟨_, .parts (.digits hc hzero hs) hf he, ?_⟩
      rw [List.append_assoc, List.append_assoc, ← hskip, List.cons_append, ← hcs]
    · cases h
  · cases h

/-! ### Integers that are read -/

/-- Digits are gathered without any left over exactly if they denote a machine word. -/
theorem gather_eq_iff {before n : Nat} {digits : List Char} (hbefore : before < wordLimit) :
    gather before digits = (n, 0) ↔ Nat.ofDigitChars 10 digits before = n ∧ n < wordLimit := by
  induction digits generalizing before with
  | nil =>
    simp only [gather, Nat.ofDigitChars_nil, Prod.mk.injEq, and_true]
    constructor
    · rintro rfl
      exact ⟨rfl, hbefore⟩
    · exact And.left
  | cons c cs ih =>
    have hvalue : 10 * before + (c.toNat - '0'.toNat) = before * 10 + Text.digitValue c := by
      rw [Nat.mul_comm]
      rfl
    rw [gather, Nat.ofDigitChars_cons, hvalue]
    split
    · rename_i hfits
      exact ih hfits
    · rename_i hlarge
      have hle := Text.le_ofDigitChars (before * 10 + Text.digitValue c) cs
      constructor
      · intro h
        cases h
      · rintro ⟨rfl, hn⟩
        exact absurd (Nat.lt_of_le_of_lt hle hn) hlarge

/-- A scaled word is a floating point number. -/
theorem float_of_scaled {isNegative : Bool} {n : Nat} {e : Int} {cs rest : List Char} {x : Number}
    (h : (scaled isNegative n e).map (·, cs) = .ok (x, rest)) : ∃ y, x = .float y := by
  obtain ⟨number, hscaled, hx⟩ := ok_of_map h
  obtain ⟨y, -, rfl⟩ := ok_of_map hscaled
  cases hx
  exact ⟨_, rfl⟩

/-- A number with an exponent is a floating point number. -/
theorem float_of_readExponent {isNegative : Bool} {n : Nat} {e : Int} {cs rest : List Char}
    {x : Number} (h : readExponent isNegative n e cs = .ok (x, rest)) : ∃ y, x = .float y := by
  unfold readExponent at h
  split at h
  split at h
  · cases h
  · cases h
  · rename_i digits _ _ _ _
    by_cases hlimit : Text.ofDigits 0 digits < exponentLimit
    · simp only [hlimit, if_true] at h
      exact float_of_scaled h
    · simp only [hlimit, if_false] at h
      split at h
      · cases h
      · cases h
        exact ⟨_, rfl⟩

theorem float_of_readScaled {isNegative : Bool} {n : Nat} {e : Int} {cs rest : List Char}
    {x : Number} (h : readScaled isNegative n e cs = .ok (x, rest)) : ∃ y, x = .float y := by
  cases cs with
  | nil => exact float_of_scaled h
  | cons c cs =>
    rw [readScaled] at h
    split at h
    · exact float_of_readExponent h
    · exact float_of_scaled h

/-- A number with a fraction is a floating point number. -/
theorem float_of_readFraction {isNegative : Bool} {n : Nat} {e : Int} {cs rest : List Char}
    {x : Number} (h : readFraction isNegative n e cs = .ok (x, rest)) : ∃ y, x = .float y := by
  unfold readFraction at h
  split at h
  · cases h
  · cases h
  · exact float_of_readScaled h

/-- Only a whole part without sign, and with nothing left over, is a number without sign. -/
theorem unsigned_of_readTail {isNegative : Bool} {n leftOver m : Nat} {cs rest : List Char}
    (h : readTail isNegative n leftOver cs = .ok (.unsigned m, rest)) :
    isNegative = false ∧ leftOver = 0 ∧ m = n ∧ rest = cs := by
  unfold readTail at h
  split at h
  · obtain ⟨_, hfloat⟩ := float_of_readFraction h
    cases hfloat
  · obtain ⟨_, hfloat⟩ := float_of_readExponent h
    cases hfloat
  · obtain ⟨_, hfloat⟩ := float_of_readExponent h
    cases hfloat
  · split at h
    · rename_i hnone
      rw [wholeNumber] at h
      split at h
      · rename_i hsign
        cases h
        exact ⟨eq_false_of_ne_true hsign, hnone, rfl, rfl⟩
      · split at h <;> cases h
    · obtain ⟨_, hfloat⟩ := float_of_scaled h
      cases hfloat

theorem readTail_of_ends {n : Nat} {rest : List Char} (hrest : EndsNumber rest) :
    readTail false n 0 rest = .ok (.unsigned n, rest) := by
  unfold readTail
  split
  · exact absurd rfl (hrest _ rfl).2.1
  · exact absurd rfl (hrest _ rfl).2.2.1
  · exact absurd rfl (hrest _ rfl).2.2.2
  · rfl

/-- An integer literal is read for its value if that fits into a machine word. -/
theorem readNumber_of_spells {s rest : List Char} {n : Nat} (hs : SpellsInteger s n)
    (hn : n < wordLimit) (hrest : EndsNumber rest) :
    readNumber false (s ++ rest) = .ok (.unsigned n, rest) := by
  obtain ⟨hw, hvalue⟩ := hs
  have hend := hrest.startsWithDigit
  cases hw with
  | zero =>
    cases hvalue
    rw [List.singleton_append, readNumber, hend, if_neg Bool.false_ne_true]
    exact readTail_of_ends hrest
  | @digits c s hc hzero hs =>
    have htake : takeDigits (c :: (s ++ rest)) = (c :: s, rest) :=
      takeDigits_append (List.forall_mem_cons.2 ⟨hc, hs⟩) hend
    have hgather : gather 0 (c :: s) = (n, 0) := (gather_eq_iff (by decide)).2 ⟨hvalue, hn⟩
    rw [List.cons_append, readNumber.eq_3 _ _ _ hzero, if_pos hc, htake]
    simp only [hgather]
    exact readTail_of_ends hrest

/-- What is read as a number without sign is an integer literal, and the number is its value. -/
theorem spells_of_readNumber {isNegative : Bool} {cs rest : List Char} {n : Nat}
    (h : readNumber isNegative cs = .ok (.unsigned n, rest)) :
    isNegative = false ∧ n < wordLimit ∧ ∃ s, SpellsInteger s n ∧ cs = s ++ rest := by
  unfold readNumber at h
  split at h
  · cases h
  · split at h
    · cases h
    · obtain ⟨hsign, -, rfl, rfl⟩ := unsigned_of_readTail h
      exact ⟨hsign, by decide, ['0'], ⟨.zero, rfl⟩, rfl⟩
  · rename_i c cs hzero
    split at h
    · rename_i hc
      obtain ⟨s, hs, hcs⟩ := exists_digits cs
      have htake : takeDigits (c :: (s ++ skipDigits cs)) = (c :: s, skipDigits cs) :=
        takeDigits_append (List.forall_mem_cons.2 ⟨hc, hs⟩) (startsWithDigit_skipDigits cs)
      rw [← hcs] at htake
      rw [htake] at h
      obtain ⟨hsign, hnone, hn, rfl⟩ := unsigned_of_readTail h
      have hgather : gather 0 (c :: s) = (n, 0) := Prod.ext hn.symm hnone
      obtain ⟨hvalue, hlimit⟩ := (gather_eq_iff (by decide)).1 hgather
      exact ⟨hsign, hlimit, c :: s, ⟨.digits hc hzero hs, hvalue⟩, by rw [List.cons_append, ← hcs]⟩
    · cases h

end SlotChain.Json

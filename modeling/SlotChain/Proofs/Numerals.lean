import SlotChain.Text.Decimal
import Mathlib.Data.List.Basic

/-!
# Numerals

The decimal notation of a number has no superfluous zero in front, and it is the only sequence of digits
without one that denotes the number. A machine word is read from its notation, whichever word it is.
-/

namespace SlotChain.Text

/-- Digits behind a number make it no smaller. -/
theorem le_ofDigitChars (n : Nat) (digits : List Char) : n ≤ Nat.ofDigitChars 10 digits n := by
  induction digits generalizing n with
  | nil => exact Nat.le_refl n
  | cons c cs ih =>
    rw [Nat.ofDigitChars_cons]
    exact Nat.le_trans (by omega) (ih _)

/-! ### Digits -/

/-- A digit has a value below ten. -/
theorem digitValue_lt {c : Char} (hc : c.isDigit = true) : digitValue c < 10 := by
  obtain ⟨-, hhigh⟩ := Char.isDigit_iff_toNat.1 hc
  have hnine : '9'.toNat = 57 := rfl
  rw [hnine] at hhigh
  rw [digitValue]
  omega

/-- A digit is the notation of its value. -/
theorem toDigits_digitValue {c : Char} (hc : c.isDigit = true) :
    Nat.toDigits 10 (digitValue c) = [c] := by
  have hsmall := digitValue_lt hc
  have hchar : (digitValue c).digitChar = c := by
    apply Char.toNat_inj.1
    obtain ⟨hlow, -⟩ := Char.isDigit_iff_toNat.1 hc
    have hzero : '0'.toNat = 48 := rfl
    rw [hzero] at hlow
    rw [Nat.toNat_digitChar_of_lt_ten hsmall, digitValue]
    omega
  rw [Nat.toDigits_of_lt_base hsmall, hchar]

/-- Only one digit has the value zero. -/
theorem digitValue_pos {c : Char} (hc : c.isDigit = true) (hzero : c ≠ '0') : 0 < digitValue c := by
  rw [Nat.pos_iff_ne_zero]
  intro hvalue
  have hdigit := toDigits_digitValue hc
  rw [hvalue, Nat.toDigits_zero] at hdigit
  exact hzero (List.cons.inj hdigit).1.symm

/-! ### Notations -/

/-- A digit behind the digits read so far counts ten times less than they do. -/
theorem ofDigitChars_digit (c : Char) (cs : List Char) (n : Nat) :
    Nat.ofDigitChars 10 (c :: cs) n = Nat.ofDigitChars 10 cs (10 * n + digitValue c) :=
  Nat.ofDigitChars_cons

/-- Digits behind the notation of a positive number continue it. -/
theorem toDigits_ofDigitChars {digits : List Char} (hdigits : ∀ c ∈ digits, c.isDigit = true) {n : Nat}
    (hn : 0 < n) : Nat.toDigits 10 (Nat.ofDigitChars 10 digits n) = Nat.toDigits 10 n ++ digits := by
  induction digits generalizing n with
  | nil => rw [Nat.ofDigitChars_nil, List.append_nil]
  | cons c cs ih =>
    obtain ⟨hc, hcs⟩ := List.forall_mem_cons.1 hdigits
    have hmore : 0 < 10 * n + digitValue c := by omega
    calc
      Nat.toDigits 10 (Nat.ofDigitChars 10 (c :: cs) n)
        = Nat.toDigits 10 (10 * n + digitValue c) ++ cs := by rw [ofDigitChars_digit, ih hcs hmore]
      _ = Nat.toDigits 10 n ++ [c] ++ cs := by
        rw [← Nat.toDigits_append_toDigits (by decide) hn (digitValue_lt hc), toDigits_digitValue hc]
      _ = Nat.toDigits 10 n ++ c :: cs := by rw [List.append_assoc, List.singleton_append]

/-- The notation of a positive number does not start with a zero. -/
theorem exists_toDigits_of_pos {n : Nat} (hn : 0 < n) :
    ∃ c s, Nat.toDigits 10 n = c :: s ∧ c ≠ '0' := by
  induction n using Nat.strongRecOn with
  | ind n ih =>
    by_cases hsmall : n < 10
    · refine ⟨n.digitChar, [], Nat.toDigits_of_lt_base hsmall, fun hzero => ?_⟩
      have hvalue := Nat.toNat_digitChar_of_lt_ten hsmall
      rw [hzero] at hvalue
      have hcode : '0'.toNat = 48 := rfl
      omega
    · obtain ⟨c, s, hfront, hc⟩ := ih (n / 10) (by omega) (by omega)
      refine ⟨c, s ++ [(n % 10).digitChar], ?_, hc⟩
      rw [Nat.toDigits_of_base_le (by decide) (Nat.le_of_not_lt hsmall), hfront, List.cons_append]

/-- The notation of a number consists of digits. -/
theorem isDigit_of_mem_toDigits {n : Nat} {c : Char} (hc : c ∈ Nat.toDigits 10 n) : c.isDigit = true :=
  Nat.isDigit_of_mem_toDigits (by decide) (by decide) hc

/-! ### Reading words -/

/-- Digits are read for the number that they denote, as long as it is a machine word. -/
theorem readDigits_of_lt {digits : List Char} (hdigits : ∀ c ∈ digits, c.isDigit = true) {before : Nat}
    (hlimit : Nat.ofDigitChars 10 digits before < wordLimit) :
    readDigits before digits = .ok (Nat.ofDigitChars 10 digits before) := by
  induction digits generalizing before with
  | nil => rw [Nat.ofDigitChars_nil, readDigits]
  | cons c cs ih =>
    obtain ⟨hc, hcs⟩ := List.forall_mem_cons.1 hdigits
    rw [ofDigitChars_digit, Nat.mul_comm] at hlimit ⊢
    have hfits : before * 10 + digitValue c < wordLimit :=
      Nat.lt_of_le_of_lt (le_ofDigitChars _ cs) hlimit
    rw [readDigits, if_pos hc, ← ih hcs hlimit]
    exact if_pos hfits

/-- A machine word is read from its notation. -/
theorem readWord_natural {n : Nat} (hn : n < wordLimit) : readWord (natural n).toList = .ok n := by
  have hvalue : Nat.ofDigitChars 10 (Nat.toDigits 10 n) 0 = n := Nat.ofDigitChars_ten_toDigits
  have hread : readDigits 0 (Nat.toDigits 10 n) = .ok n := by
    rw [readDigits_of_lt (fun _ => isDigit_of_mem_toDigits) (hvalue.symm ▸ hn), hvalue]
  have hsign : ∀ rest, Nat.toDigits 10 n ≠ '+' :: rest := by
    intro rest heq
    have hdigit := isDigit_of_mem_toDigits (n := n) (c := '+') (by rw [heq]; exact List.mem_cons_self)
    exact absurd hdigit (by decide)
  rw [natural, String.toList_ofList, readWord.eq_4 _ ?_ ?_ ?_, hread]
  · exact Nat.toDigits_ne_nil
  · exact hsign []
  · exact hsign

end SlotChain.Text

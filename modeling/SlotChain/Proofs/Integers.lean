import SlotChain.Text.Decimal
import Mathlib.Data.List.Basic

/-!
# Whole numbers can be read back

A whole number is written with digits, behind a sign if it is negative. A reader gets the number back from
its text, so no two of them are written alike; and no mark that separates numbers can stand inside of one.
-/

namespace SlotChain.Text

/-- Read a whole number in decimal notation. -/
def readInteger : List Char → Int
  | '-' :: digits => -(Nat.ofDigitChars 10 digits 0 : Int)
  | digits => Nat.ofDigitChars 10 digits 0

theorem toList_integer_ofNat (n : Nat) : (integer (.ofNat n)).toList = Nat.toDigits 10 n := by
  rw [integer, natural, String.toList_ofList]

theorem toList_integer_negSucc (n : Nat) :
    (integer (.negSucc n)).toList = '-' :: Nat.toDigits 10 (n + 1) := by
  simp only [integer, natural, String.toList_append, String.toList_ofList]
  rfl

/-- A number in digits has no sign in front. -/
theorem toDigits_ne_sign (n : Nat) (rest : List Char) : Nat.toDigits 10 n ≠ '-' :: rest := by
  intro h
  have hsign : '-' ∈ Nat.toDigits 10 n := by
    rw [h]
    exact List.mem_cons_self
  exact absurd (Nat.isDigit_of_mem_toDigits (by decide) (by decide) hsign) (by decide)

/-- A whole number is written with digits and a sign. -/
theorem isDigit_of_mem_integer {n : Int} {c : Char} (h : c ∈ (integer n).toList) :
    c = '-' ∨ c.isDigit = true := by
  have hdigits : ∀ m, c ∈ Nat.toDigits 10 m → c.isDigit = true := fun m hmem =>
    Nat.isDigit_of_mem_toDigits (by decide) (by decide) hmem
  cases n with
  | ofNat n =>
    rw [toList_integer_ofNat] at h
    exact .inr (hdigits n h)
  | negSucc n =>
    rw [toList_integer_negSucc, List.mem_cons] at h
    exact h.imp_right (hdigits (n + 1))

/-- Every whole number has a text. -/
theorem toList_integer_ne_nil (n : Int) : (integer n).toList ≠ [] := by
  cases n with
  | ofNat n =>
    rw [toList_integer_ofNat]
    exact Nat.toDigits_ne_nil
  | negSucc n =>
    rw [toList_integer_negSucc]
    exact List.cons_ne_nil _ _

/-- A whole number is read back from its text. -/
theorem readInteger_integer (n : Int) : readInteger (integer n).toList = n := by
  cases n with
  | ofNat n =>
    rw [toList_integer_ofNat, readInteger]
    · rw [Nat.ofDigitChars_ten_toDigits]
      rfl
    · exact toDigits_ne_sign n
  | negSucc n =>
    rw [toList_integer_negSucc, readInteger, Nat.ofDigitChars_ten_toDigits]
    rfl

/-- Two whole numbers are not written alike. -/
theorem integer_injective : Function.Injective integer := by
  intro m n h
  have hread := readInteger_integer m
  rw [h, readInteger_integer] at hread
  exact hread.symm

end SlotChain.Text

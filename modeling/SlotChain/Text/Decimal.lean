import SlotChain.Word

/-!
# Decimal notation

Whole numbers are written with as few digits as possible. A machine word is read from decimal digits,
with leading zeros and one plus sign allowed.
-/

namespace SlotChain.Text

/-- The value of a decimal digit. -/
def digitValue (c : Char) : Nat := c.toNat - 48

/-- The number that decimal digits denote, going on from the value of the digits before them. -/
def ofDigits (before : Nat) (digits : List Char) : Nat :=
  digits.foldl (fun n c => n * 10 + digitValue c) before

/-- A natural number in decimal notation. -/
def natural (n : Nat) : String := String.ofList (Nat.toDigits 10 n)

/-- A whole number in decimal notation, with a sign only if it is negative. -/
def integer : Int → String
  | .ofNat n => natural n
  | .negSucc n => "-" ++ natural (n + 1)

/-- Why a text denotes no machine word. -/
inductive WordFlaw where
  /-- There is nothing to read. -/
  | empty
  /-- Something is no digit. -/
  | invalidDigit
  /-- The number is beyond the largest word. -/
  | tooLarge
deriving Repr, DecidableEq

/-- The text under which a flawed word is reported. -/
def WordFlaw.message : WordFlaw → String
  | empty => "cannot parse integer from empty string"
  | invalidDigit => "invalid digit found in string"
  | tooLarge => "number too large to fit in target type"

/-- Read digits from left to right on top of a value. The first character that is no digit, or makes
the number too large, decides. -/
def readDigits (before : Nat) : List Char → Except WordFlaw Nat
  | [] => .ok before
  | c :: cs =>
    if c.isDigit then
      let n := before * 10 + digitValue c
      if n < wordLimit then readDigits n cs else .error .tooLarge
    else .error .invalidDigit

/-- Read a machine word. -/
def readWord : List Char → Except WordFlaw Nat
  | [] => .error .empty
  | ['+'] => .error .invalidDigit
  | '+' :: cs => readDigits 0 cs
  | cs => readDigits 0 cs

end SlotChain.Text

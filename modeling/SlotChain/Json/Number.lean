import SlotChain.Json.Basic
import SlotChain.Text.Decimal

/-!
# JSON numbers

A number without fraction and exponent is whole as long as it fits into a machine word, signed if there
is a sign. Every other number, and a negative zero, is a floating point number: its leading digits are
gathered in a machine word, and the word is scaled by a power of ten, so that the result may differ from
the nearest one in its last place.
-/

namespace SlotChain.Json

/-- A number as a JSON text gives it. -/
inductive Number where
  /-- A whole number without sign that fits into a machine word. -/
  | unsigned (n : Nat)
  /-- A negative whole number that fits into a signed machine word. -/
  | negative (n : Int)
  /-- Any other number. -/
  | float (x : Float)

/-- Read decimal digits. -/
def takeDigits (cs : List Char) : List Char × List Char := cs.span Char.isDigit

/-- Gather digits on top of a value as long as it fits into a machine word, and count the digits that
are left over from the first that does not fit. -/
def gather (before : Nat) : List Char → Nat × Nat
  | [] => (before, 0)
  | c :: cs =>
    let n := before * 10 + Text.digitValue c
    if n < wordLimit then gather n cs else (before, cs.length + 1)

/-- A power of ten as a floating point number. -/
def powerOfTen (n : Nat) : Float := Float.ofScientific 1 false n

/-- Divide by a power of ten. Beyond the largest that is a floating point number this takes several
steps, up to the first that leaves nothing. -/
def scaleDown (x : Float) (n : Nat) : Float :=
  if n ≤ 308 then x / powerOfTen n
  else if x == 0 then x
  else scaleDown (x / powerOfTen 308) (n - 308)
termination_by n

/-- Multiply by a power of ten. A result beyond the largest floating point number is a flaw. -/
def scaleUp (x : Float) (n : Nat) : Except Flaw Float :=
  if n ≤ 308 then
    let y := x * powerOfTen n
    if y.isInf then .error .malformed else .ok y
  else if x == 0 then .ok x
  else .error .malformed

/-- A word scaled by a power of ten, with a sign. -/
def scaled (isNegative : Bool) (significand : Nat) (e : Int) : Except Flaw Number :=
  let x := (UInt64.ofNat significand).toFloat
  let magnitude := if e < 0 then .ok (scaleDown x e.natAbs) else scaleUp x e.toNat
  magnitude.map fun y => .float (if isNegative then -y else y)

/-- An exponent that is written has to stay below this limit, two to the power of 31. -/
def exponentLimit : Nat := 2147483648

/-- Read an exponent, behind its letter, and scale a word by it and by the exponent so far. -/
def readExponent (isNegative : Bool) (significand : Nat) (e : Int) (cs : List Char) :
    Except Flaw (Number × List Char) :=
  let (goesDown, cs) := match cs with
    | '+' :: rest => (false, rest)
    | '-' :: rest => (true, rest)
    | rest => (false, rest)
  match takeDigits cs with
  | ([], []) => .error .ended
  | ([], _) => .error .malformed
  | (digits, rest) =>
    let n := Text.ofDigits 0 digits
    if n < exponentLimit then
      (scaled isNegative significand (if goesDown then e - n else e + n)).map (·, rest)
    else if significand ≠ 0 ∧ ¬ goesDown then .error .malformed
    else .ok (.float (if isNegative then -0.0 else 0.0), rest)

/-- Scale a word by an exponent, if one follows, and by the exponent so far. -/
def readScaled (isNegative : Bool) (significand : Nat) (e : Int) :
    List Char → Except Flaw (Number × List Char)
  | [] => (scaled isNegative significand e).map (·, [])
  | c :: cs =>
    if c = 'e' ∨ c = 'E' then readExponent isNegative significand e cs
    else (scaled isNegative significand e).map (·, c :: cs)

/-- Read a fraction, behind its point, and what may follow it. -/
def readFraction (isNegative : Bool) (significand : Nat) (e : Int) (cs : List Char) :
    Except Flaw (Number × List Char) :=
  match takeDigits cs with
  | ([], []) => .error .ended
  | ([], _) => .error .malformed
  | (digits, rest) =>
    let (significand, leftOver) := gather significand digits
    readScaled isNegative significand (e - (digits.length - leftOver : Nat)) rest

/-- The number of a whole part that fits into a machine word and has nothing behind it. -/
def wholeNumber (isNegative : Bool) (n : Nat) : Number :=
  if ¬ isNegative then .unsigned n
  else if 0 < n ∧ n ≤ signedWordLimit then .negative (-n)
  else .float (-(UInt64.ofNat n).toFloat)

/-- Read what follows the whole part of a number. -/
def readTail (isNegative : Bool) (n leftOver : Nat) :
    List Char → Except Flaw (Number × List Char)
  | '.' :: cs => readFraction isNegative n leftOver cs
  | 'e' :: cs => readExponent isNegative n leftOver cs
  | 'E' :: cs => readExponent isNegative n leftOver cs
  | cs =>
    if leftOver = 0 then .ok (wholeNumber isNegative n, cs)
    else (scaled isNegative n leftOver).map (·, cs)

/-- Read a number, behind its sign. A leading zero stands by itself. -/
def readNumber (isNegative : Bool) : List Char → Except Flaw (Number × List Char)
  | [] => .error .ended
  | '0' :: cs => if startsWithDigit cs then .error .malformed else readTail isNegative 0 0 cs
  | c :: cs =>
    if c.isDigit then
      let (digits, rest) := takeDigits (c :: cs)
      let (n, leftOver) := gather 0 digits
      readTail isNegative n leftOver rest
    else .error .malformed

end SlotChain.Json

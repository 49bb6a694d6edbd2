import SlotChain.Text.Decimal

/-!
# Shortest decimal text of a floating point number

A double stands for every real number that rounds to it. Of the decimal numbers in that interval, the
one on the coarsest grid of powers of ten is written, and among two of those the nearer; it has the
fewest digits that read back as the same double. The interval is compared with the grid in exact
arithmetic, on numbers scaled to be whole.
-/

namespace SlotChain.Text

/-- A finite double that is not zero: the number m · 2^q, up to its sign. -/
structure Binary where
  /-- The significant bits as a whole number. -/
  significand : Nat
  /-- The power of two that scales them. -/
  exponent : Int
  /-- Whether the next smaller double is only half as far away as the next larger one. -/
  narrowBelow : Bool

/-- The number of fractions that a double can have behind its leading bit, two to the power of 52. -/
def fractions : Nat := 4503599627370496

/-- The number of exponents that a double can have, two to the power of 11. -/
def exponents : Nat := 2048

/-- The magnitude of a double, taken from its bits. -/
def Binary.ofFloat (x : Float) : Binary :=
  let bits := x.toBits.toNat
  let fraction := bits % fractions
  let biased := bits / fractions % exponents
  if biased = 0 then ⟨fraction, -1074, false⟩
  else ⟨fraction + fractions, (biased : Int) - 1075, fraction == 0 && biased != 1⟩

/-- Whether a double has a minus sign. -/
def hasMinus (x : Float) : Bool := x.toBits.toNat / fractions / exponents == 1

namespace Binary

/-- A power with a whole exponent, which contributes nothing if the exponent is negative. -/
def power (base : Nat) (e : Int) : Nat := Nat.pow base e.toNat

/-- The whole number c for which c · 10^e is the best decimal on that grid that stands for the double,
if any does. All quantities are scaled by four and by the same powers of two and ten. -/
def onGrid? (b : Binary) (e : Int) : Option Nat :=
  let unit := 4 * power 2 (-b.exponent) * power 10 e
  let scale := power 2 b.exponent * power 10 (-e)
  let value := 4 * b.significand * scale
  let least := (4 * b.significand - (if b.narrowBelow then 1 else 2)) * scale
  let greatest := (4 * b.significand + 2) * scale
  let inside (c : Nat) : Bool :=
    if b.significand % 2 = 0 then decide (least ≤ c * unit ∧ c * unit ≤ greatest)
    else decide (least < c * unit ∧ c * unit < greatest)
  let below := value / unit
  let above := below + 1
  match below != 0 && inside below, inside above with
  | true, true =>
    let gapBelow := value - below * unit
    let gapAbove := above * unit - value
    if gapBelow < gapAbove ∨ gapBelow = gapAbove ∧ below % 2 = 0 then some below else some above
  | true, false => some below
  | false, true => some above
  | false, false => none

/-- The best decimal on the coarsest grid that has one, from a grid on downwards. -/
def shortestFrom (b : Binary) : (steps : Nat) → (e : Int) → Nat × Int
  | 0, e => ((b.onGrid? e).getD 0, e)
  | steps + 1, e =>
    match b.onGrid? e with
    | some c => (c, e)
    | none => shortestFrom b steps (e - 1)

/-- The shortest decimal c · 10^e that stands for the double. -/
def shortest (b : Binary) : Nat × Int := b.shortestFrom 660 310

end Binary

/-- How far the exponent of a floating point number may go for it to be written without one. -/
def positionalExponents : Int × Int := (-5, 15)

/-- Decimal digits with a point behind the first, unless there is only one. -/
def pointAfterFirst : List Char → List Char
  | [] => []
  | [d] => [d]
  | d :: ds => d :: '.' :: ds

/-- The text of the decimal number with the given digits, the first of which counts powers of ten with
the given exponent. -/
def layOut (digits : List Char) (e : Int) : List Char :=
  if e < positionalExponents.1 ∨ positionalExponents.2 < e then
    let sign := if e < 0 then '-' else '+'
    pointAfterFirst digits ++ 'e' :: sign :: Nat.toDigits 10 e.natAbs
  else if e < 0 then
    '0' :: '.' :: List.replicate (e.natAbs - 1) '0' ++ digits
  else
    let whole := e.toNat + 1
    let padded := digits ++ List.replicate (whole - digits.length) '0'
    let fraction := padded.drop whole
    padded.take whole ++ '.' :: (if fraction.isEmpty then ['0'] else fraction)

/-- The shortest text of a finite floating point number that reads back as the same number. -/
def floatText (x : Float) : String :=
  let sign := if hasMinus x then ['-'] else []
  let b := Binary.ofFloat x
  let magnitude :=
    if b.significand = 0 then "0.0".toList
    else
      let (c, e) := b.shortest
      let digits := Nat.toDigits 10 c
      layOut digits (e + digits.length - 1)
  String.ofList (sign ++ magnitude)

end SlotChain.Text

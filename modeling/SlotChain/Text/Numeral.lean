/-!
# Numerals

The texts that denote a number with a fraction or without: a sign, digits around at most one point, and
an exponent, of which only the digits have to be there. The words for the values beyond all finite
numbers, and for what is no number at all, count as numerals too.
-/

namespace SlotChain.Text

/-- A text without a sign in front. -/
def dropSign : List Char → List Char
  | '+' :: cs => cs
  | '-' :: cs => cs
  | cs => cs

/-- Whether a text is an exponent, or nothing. -/
def isExponent : List Char → Bool
  | [] => true
  | c :: cs =>
    let digits := dropSign cs
    (c == 'e' || c == 'E') && !digits.isEmpty && digits.all Char.isDigit

/-- Whether a text is a number without a sign. -/
def isUnsigned (cs : List Char) : Bool :=
  let whole := cs.takeWhile Char.isDigit
  match cs.dropWhile Char.isDigit with
  | '.' :: rest =>
    !(whole.isEmpty && (rest.takeWhile Char.isDigit).isEmpty)
      && isExponent (rest.dropWhile Char.isDigit)
  | rest => !whole.isEmpty && isExponent rest

/-- The words that are numerals, in lower case. -/
def numeralWords : List (List Char) := ["inf".toList, "infinity".toList, "nan".toList]

/-- Whether a text is a numeral. -/
def isNumeral (cs : List Char) : Bool :=
  let unsigned := dropSign cs
  numeralWords.any (fun word => decide (unsigned.map Char.toLower = word)) || isUnsigned unsigned

end SlotChain.Text

/-!
# Reading JSON

The readers below take JSON texts apart from left to right. Each takes the characters still to be read
and gives back what remains. A text can be flawed in two ways: it ends too early, or it holds something
that cannot stand where it stands; the first flaw met decides.
-/

namespace SlotChain.Json

/-- Why a text is no JSON. -/
inductive Flaw where
  /-- The text ends in the middle of a value. -/
  | ended
  /-- Something cannot stand where it stands. -/
  | malformed
deriving Repr, DecidableEq

/-- Whether a character may stand between the tokens of a JSON text. -/
def isBlank (c : Char) : Bool := c == ' ' || c == '\t' || c == '\n' || c == '\r'

/-- Skip white space. -/
def skipBlank (cs : List Char) : List Char := cs.dropWhile isBlank

/-- Read given letters. -/
def readLetters : List Char → List Char → Except Flaw (List Char)
  | [], cs => .ok cs
  | _ :: _, [] => .error .ended
  | letter :: more, c :: cs => if letter = c then readLetters more cs else .error .malformed

/-- Skip decimal digits. -/
def skipDigits (cs : List Char) : List Char := cs.dropWhile Char.isDigit

/-- Whether a text goes on with a decimal digit. -/
def startsWithDigit : List Char → Bool
  | [] => false
  | c :: _ => c.isDigit

end SlotChain.Json

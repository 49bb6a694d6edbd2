import SlotChain.Pattern.Flags

/-!
# Atoms of patterns

The smallest parts of a pattern: single characters, some of which are written behind a backslash, and
signs for any character, for a class of characters and for a place in the text.

Patterns are used without tables of characters. What would need one cannot be used: classes by a
property, and, as long as the pattern is about characters, both cases of a letter and the shorthand
classes. A pattern about bytes may only match bytes of the basic alphabet, since others are no characters
by themselves.
-/

namespace SlotChain.Pattern

/-- The smallest parts of a pattern. -/
inductive Atom where
  /-- A character, maybe written as the number of a byte. -/
  | literal (c : Char) (asByte : Bool)
  /-- Any character. -/
  | any
  /-- A place at the start or the end of the text or of a line. -/
  | edge
  /-- A place at the start or the end of a word, or one that is neither. -/
  | wordBoundary
  /-- A shorthand for the digits, the white space or the characters of words, or for all but these. -/
  | shorthand (negated : Bool)
deriving Repr, DecidableEq

/-- Whether an atom can be used outside of brackets. -/
def Atom.usable (f : Flags) : Atom → Bool
  | literal c asByte => if f.unicode then !f.caseless else !(asByte && 0x80 ≤ c.toNat)
  | any => f.unicode
  | edge => true
  | wordBoundary => true
  | shorthand negated => !f.unicode && !negated

/-- Whether an atom can be used inside of brackets, where it has to stand for single characters. -/
def Atom.usableInBrackets (f : Flags) : Atom → Bool
  | literal c _ => if f.unicode then !f.caseless else c.toNat < 0x80
  | shorthand negated => !f.unicode && !negated
  | _ => false

/-- The value of a hexadecimal digit. -/
def hexDigit? (c : Char) : Option Nat :=
  if c.isDigit then some (c.toNat - 48)
  else if 'a' ≤ c ∧ c ≤ 'f' then some (c.toNat - 87)
  else if 'A' ≤ c ∧ c ≤ 'F' then some (c.toNat - 55)
  else none

/-- Read a number of hexadecimal digits on top of a value, with nothing but what may be skipped between
them. -/
def readHex (f : Flags) : Nat → Nat → List Char → Option (Nat × List Char)
  | 0, n, cs => some (n, cs)
  | k + 1, n, cs =>
    match f.skip cs with
    | [] => none
    | c :: cs => do readHex f k (n * 16 + (← hexDigit? c)) cs

/-- Read a character that is given by hexadecimal digits. -/
def readCode (f : Flags) (digits : Nat) (cs : List Char) : Option (Atom × List Char) := do
  let (n, rest) ← readHex f digits 0 cs
  if n.isValidChar then some (.literal (Char.ofNat n) (digits == 2), rest) else none

/-- Read what stands behind a backslash. Letters, digits and angle brackets have a meaning of their own
or none; any other character of the basic alphabet stands for itself. -/
def readEscape (f : Flags) : List Char → Option (Atom × List Char)
  | [] => none
  | c :: cs =>
    match c with
    | 'x' => readCode f 2 cs
    | 'u' => readCode f 4 cs
    | 'U' => readCode f 8 cs
    | 'd' => some (.shorthand false, cs)
    | 's' => some (.shorthand false, cs)
    | 'w' => some (.shorthand false, cs)
    | 'D' => some (.shorthand true, cs)
    | 'S' => some (.shorthand true, cs)
    | 'W' => some (.shorthand true, cs)
    | 'A' => some (.edge, cs)
    | 'z' => some (.edge, cs)
    | 'b' => some (.wordBoundary, cs)
    | 'B' => some (.wordBoundary, cs)
    | '<' => some (.wordBoundary, cs)
    | '>' => some (.wordBoundary, cs)
    | 'a' => some (.literal '\x07' false, cs)
    | 'f' => some (.literal '\x0c' false, cs)
    | 't' => some (.literal '\t' false, cs)
    | 'n' => some (.literal '\n' false, cs)
    | 'r' => some (.literal '\r' false, cs)
    | 'v' => some (.literal '\x0b' false, cs)
    | _ => if c.isAlphanum || 0x80 ≤ c.toNat then none else some (.literal c false, cs)

end SlotChain.Pattern

import SlotChain.Text.Blank

/-!
# Flags of patterns

Flags change how the rest of a pattern is read. They are given in parentheses by single letters, and
those behind a dash are switched off. Only three of them have a say in whether a pattern can be used.
-/

namespace SlotChain.Pattern

/-- The flags that decide what a pattern may hold. -/
structure Flags where
  /-- Letters stand for both of their cases. -/
  caseless : Bool := false
  /-- The pattern is about characters; else it is about bytes. -/
  unicode : Bool := true
  /-- White space and comments in the pattern count for nothing. -/
  spaced : Bool := false
deriving Repr, DecidableEq

/-- The letters of all flags, with the dash that switches off. -/
def flagLetters : List Char := ['i', 'm', 's', 'U', 'u', 'R', 'x', '-']

/-- Whether letters are a change of flags: every letter is known, none is given twice, and something
follows the dash. -/
def isFlagChange (letters : List Char) : Bool :=
  letters.all (fun c => flagLetters.any fun d => decide (c = d))
    && decide letters.Nodup && decide (letters.getLast? ≠ some '-')

/-- Set one flag. -/
def Flags.set (f : Flags) (on : Bool) (letter : Char) : Flags :=
  match letter with
  | 'i' => { f with caseless := on }
  | 'u' => { f with unicode := on }
  | 'x' => { f with spaced := on }
  | _ => f

/-- Make a change of flags, of which the part up to a dash switches on. -/
def Flags.change (f : Flags) (letters : List Char) : Flags :=
  let isOn := fun c => decide (c ≠ '-')
  let f := (letters.takeWhile isOn).foldl (·.set true) f
  (letters.dropWhile isOn).foldl (·.set false) f

/-- The rest of a text behind white space and comments. A comment starts with a number sign and goes to
the end of the line. -/
def skipComments (inComment : Bool) : List Char → List Char
  | [] => []
  | c :: cs =>
    if inComment then skipComments (decide (c ≠ '\n')) cs
    else if Text.isBlank c then skipComments false cs
    else if c = '#' then skipComments true cs
    else c :: cs

/-- The rest of a pattern behind what counts for nothing. -/
def Flags.skip (f : Flags) (cs : List Char) : List Char :=
  if f.spaced then skipComments false cs else cs

end SlotChain.Pattern

import SlotChain.Pattern.Atom
import SlotChain.Pattern.Depth

/-!
# Bracketed classes of patterns

A class of characters stands between brackets: characters, ranges, named classes and further classes in
brackets, joined by doubled signs for what two classes share, for what only the first has, and for what
only one of them has.
-/

namespace SlotChain.Pattern

/-- A class of which some items have been read. -/
structure OpenClass where
  /-- Whether the class stands for all characters that it does not name. -/
  negated : Bool
  /-- The depth of the operands so far, if there has been an operator. -/
  left : Option Nat := none
  /-- The items behind the last operator. -/
  items : Row := {}
deriving Repr, DecidableEq

namespace OpenClass

/-- Add an item. -/
def add (k : OpenClass) (depth : Nat) : OpenClass := { k with items := k.items.add depth }

/-- The depth of what has been read, where every operator takes all in front of it. -/
def height (k : OpenClass) : Nat :=
  match k.left with
  | none => k.items.height
  | some left => max left k.items.height + 1

/-- Go on behind an operator. -/
def operate (k : OpenClass) : OpenClass := { k with left := some k.height, items := {} }

end OpenClass

/-- Count the dashes at the start of a text, and skip what counts for nothing among them. -/
def countDashes (f : Flags) (inComment : Bool) : List Char → Nat × List Char
  | [] => (0, [])
  | c :: cs =>
    if inComment then countDashes f (decide (c ≠ '\n')) cs
    else if c = '-' then
      let (n, rest) := countDashes f false cs
      (n + 1, rest)
    else if f.spaced && Text.isBlank c then countDashes f false cs
    else if f.spaced && c == '#' then countDashes f true cs
    else (0, c :: cs)

/-- Open a class behind its bracket. A circumflex negates it; dashes in front, and without them a
closing bracket, stand for themselves. -/
def openClass (f : Flags) (cs : List Char) : Option (OpenClass × List Char) :=
  let (negated, cs) := match f.skip cs with
    | '^' :: rest => (true, rest)
    | rest => (false, rest)
  let (dashes, rest) := countDashes f false cs
  let usable := (Atom.literal '-' false).usableInBrackets f
  if dashes = 0 then
    match rest with
    | ']' :: rest => if usable then some ({ negated, items := ⟨1, 0⟩ }, rest) else none
    | rest => some ({ negated }, rest)
  else if usable then some ({ negated, items := ⟨dashes, 0⟩ }, rest)
  else none

/-- The names of classes. -/
def classNames : List String := [
  "alnum", "alpha", "ascii", "blank", "cntrl", "digit", "graph", "lower", "print", "punct", "space",
  "upper", "word", "xdigit"]

/-- Read a named class behind its bracket, with colons around the name, and tell whether it is
negated. -/
def readNamedClass : List Char → Option (Bool × List Char)
  | ':' :: cs =>
    let (negated, cs) := match cs with
      | '^' :: rest => (true, rest)
      | rest => (false, rest)
    let name := String.ofList (cs.takeWhile fun c => decide (c ≠ ':'))
    match cs.dropWhile fun c => decide (c ≠ ':') with
    | ':' :: ']' :: rest =>
      if classNames.any fun known => decide (name = known) then some (negated, rest) else none
    | _ => none
  | _ => none

/-- Whether a named class can be used: only about characters it may be negated, and only about bytes it
may stand for both cases of its letters. -/
def isNamedUsable (f : Flags) (negated : Bool) : Bool :=
  if f.unicode then !f.caseless else !negated

/-- Read one end of a range, or a single item. -/
def readClassAtom (f : Flags) : List Char → Option (Atom × List Char)
  | [] => none
  | '\\' :: cs => readEscape f cs
  | c :: cs => some (.literal c false, cs)

/-- The first character behind white space, where a number sign counts for white space once. If there
is no such character, the first of all. -/
def peekBehind (cs : List Char) : Option Char :=
  let rest := cs.dropWhile Text.isBlank
  let rest := match rest with
    | '#' :: rest => rest.dropWhile Text.isBlank
    | rest => rest
  rest.head?.or cs.head?

/-- Whether a dash in front of a text stands for itself or belongs to an operator, and makes no
range. -/
def endsItem (f : Flags) (cs : List Char) : Bool :=
  let next := if f.spaced then peekBehind cs else cs.head?
  decide (next = some ']') || decide (next = some '-')

/-- Whether two atoms are the ends of a range. -/
def isRange : Atom → Atom → Bool
  | .literal c _, .literal d _ => c.toNat ≤ d.toNat
  | _, _ => false

/-- Read an item: a range, or a single atom. -/
def readItem (f : Flags) (cs : List Char) : Option (List Char) := do
  let (a, cs) ← readClassAtom f cs
  if !a.usableInBrackets f then none
  else
    match f.skip cs with
    | [] => none
    | '-' :: rest =>
      if endsItem f rest then some ('-' :: rest)
      else
        let (b, rest) ← readClassAtom f (f.skip rest)
        if b.usableInBrackets f && isRange a b then some rest else none
    | rest => some rest

/-- Read on in a class that stands in others, up to the end of the outermost, and tell how deep that is.
Only a class of characters may be negated, since all other bytes would make no characters. Every turn
takes at least one character, so the bound is met by the number of characters. -/
def readClassUpTo (f : Flags) : Nat → OpenClass → List OpenClass → List Char →
    Option (Nat × List Char)
  | 0, _, _, _ => none
  | bound + 1, k, outer, cs =>
    match f.skip cs with
    | [] => none
    | ']' :: rest =>
      if k.negated && !f.unicode then none
      else
        match outer with
        | [] => some (k.height + 1, rest)
        | parent :: outer => readClassUpTo f bound (parent.add (k.height + 1)) outer rest
    | '&' :: '&' :: rest => readClassUpTo f bound k.operate outer rest
    | '-' :: '-' :: rest => readClassUpTo f bound k.operate outer rest
    | '~' :: '~' :: rest => readClassUpTo f bound k.operate outer rest
    | '[' :: rest =>
      match readNamedClass rest with
      | some (negated, rest) =>
        if isNamedUsable f negated then readClassUpTo f bound (k.add 0) outer rest else none
      | none => do
        let (inner, rest) ← openClass f rest
        readClassUpTo f bound inner (k :: outer) rest
    | rest => do readClassUpTo f bound (k.add 0) outer (← readItem f rest)

/-- Read a class behind its bracket, and tell how deep it is. -/
def readClass (f : Flags) (cs : List Char) : Option (Nat × List Char) := do
  let (k, rest) ← openClass f cs
  readClassUpTo f (rest.length + 1) k [] rest

end SlotChain.Pattern

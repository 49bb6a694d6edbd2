import SlotChain.Pattern.Bracket
import SlotChain.Text.Alphanumeric

/-!
# Patterns

A pattern describes texts: atoms and bracketed classes that follow each other, each maybe repeated, in
branches of which one has to match, with parentheses around what belongs together. Here it is only
found out whether a pattern can be used, which says nothing about what it matches.

A repetition that is counted between braces is not known. A directive ends a field at the first closing
brace, so none is ever complete there.
-/

namespace SlotChain.Pattern

/-- Why a pattern cannot be used. -/
inductive Flaw where
  /-- It is not formed as a pattern, or needs what is not at hand. -/
  | unusable
  /-- It asks for the boundary of a word of any alphabet. -/
  | wordBoundary
deriving Repr, DecidableEq

/-- The text under which a flawed pattern is reported. -/
def Flaw.message : Flaw → String
  | unusable => "error building NFA"
  | wordBoundary => "unsupported regex feature for DFAs: cannot build DFAs for regexes with " ++
      "Unicode word boundaries; switch to ASCII word boundaries, or heuristically enable " ++
      "Unicode word boundaries or use a different regex engine"

/-- A part of a branch. -/
inductive Part where
  /-- A change of flags, which cannot be repeated. -/
  | change
  /-- Anything else, with its depth. -/
  | piece (depth : Nat)
deriving Repr, DecidableEq

/-- The depth of a part. -/
def Part.depth : Part → Nat
  | change => 0
  | piece depth => depth

/-- A group of which some parts have been read, or the whole pattern. -/
structure OpenGroup where
  /-- The branches that are complete. -/
  branches : Row := {}
  /-- The parts of the last branch, without the last. -/
  before : Row := {}
  /-- The last part, to which a repetition applies. -/
  last : Option Part := none
deriving Repr, DecidableEq

namespace OpenGroup

/-- All parts of the last branch. -/
def branch (g : OpenGroup) : Row :=
  match g.last with
  | none => g.before
  | some part => g.before.add part.depth

/-- Add a part. -/
def add (g : OpenGroup) (part : Part) : OpenGroup := { g with before := g.branch, last := some part }

/-- Repeat the last part. -/
def repeatLast (g : OpenGroup) : Option OpenGroup :=
  match g.last with
  | some (.piece depth) => some { g with last := some (.piece (depth + 1)) }
  | _ => none

/-- Go on with another branch. -/
def split (g : OpenGroup) : OpenGroup := { branches := g.branches.add g.branch.height }

/-- The depth of what has been read. -/
def height (g : OpenGroup) : Nat := (g.branches.add g.branch.height).height

end OpenGroup

/-- What is known about a pattern of which some characters have been read. -/
structure Progress where
  /-- The flags for what follows. -/
  flags : Flags := {}
  /-- The group that is read. -/
  group : OpenGroup := {}
  /-- The groups around it, each with the flags that hold behind the inner one. -/
  outer : List (OpenGroup × Flags) := []
  /-- The names of groups. -/
  names : List (List Char) := []
  /-- Whether there has been a boundary of words of any alphabet. -/
  boundary : Bool := false

/-- Whether characters are the name of a group. -/
def isGroupName : List Char → Bool
  | [] => false
  | c :: cs =>
    (c == '_' || Text.isAlphabetic c)
      && cs.all fun d => d == '_' || d == '.' || d == '[' || d == ']' || Text.isAlphanumeric d

namespace Progress

/-- Add an atom. -/
def addAtom (p : Progress) (a : Atom) : Option Progress :=
  if a.usable p.flags then
    some { p with
      group := p.group.add (.piece 0)
      boundary := p.boundary || (decide (a = .wordBoundary) && p.flags.unicode) }
  else none

/-- Open a group. -/
def enter (p : Progress) (flags : Flags) : Progress :=
  { p with flags, group := {}, outer := (p.group, p.flags) :: p.outer }

/-- Open a group with a name, which ends with an angle bracket. No other group may have that name. -/
def enterNamed (p : Progress) (cs : List Char) : Option (Progress × List Char) :=
  let name := cs.takeWhile fun c => decide (c ≠ '>')
  match cs.dropWhile fun c => decide (c ≠ '>') with
  | [] => none
  | _ :: rest =>
    if isGroupName name && !p.names.any (fun known => decide (name = known)) then
      some ({ p.enter p.flags with names := name :: p.names }, rest)
    else none

/-- Change flags for the rest of a group, or open a group with flags of its own. -/
def changeFlags (p : Progress) (cs : List Char) : Option (Progress × List Char) :=
  let inChange := fun c => decide (c ≠ ':') && decide (c ≠ ')')
  let letters := cs.takeWhile inChange
  if isFlagChange letters then
    match cs.dropWhile inChange with
    | [] => none
    | ':' :: rest => some (p.enter (p.flags.change letters), rest)
    | _ :: rest =>
      if letters.isEmpty then none
      else some ({ p with flags := p.flags.change letters, group := p.group.add .change }, rest)
  else none

/-- Go on behind an opening parenthesis. -/
def readOpening (p : Progress) (cs : List Char) : Option (Progress × List Char) :=
  match p.flags.skip cs with
  | '?' :: 'P' :: '<' :: rest => p.enterNamed rest
  | '?' :: '<' :: rest => p.enterNamed rest
  | '?' :: rest => p.changeFlags rest
  | rest => some (p.enter p.flags, rest)

/-- Close a group. -/
def leave (p : Progress) : Option Progress :=
  match p.outer with
  | [] => none
  | (group, flags) :: outer =>
    some { p with flags, outer, group := group.add (.piece (p.group.height + 1)) }

/-- Go on behind a sign of repetition. A question mark right behind it only changes which of several
matches is preferred. -/
def readRepetition (p : Progress) (cs : List Char) : Option (Progress × List Char) := do
  let group ← p.group.repeatLast
  return ({ p with group }, match cs with
    | '?' :: rest => rest
    | rest => rest)

/-- Go on with a character. -/
def step (p : Progress) (c : Char) (cs : List Char) : Option (Progress × List Char) := do
  match c with
  | '(' => p.readOpening cs
  | ')' => return (← p.leave, cs)
  | '|' => return ({ p with group := p.group.split }, cs)
  | '[' =>
    let (depth, rest) ← readClass p.flags cs
    return ({ p with group := p.group.add (.piece depth) }, rest)
  | '?' => p.readRepetition cs
  | '*' => p.readRepetition cs
  | '+' => p.readRepetition cs
  | '\x7b' => none
  | '\\' =>
    let (a, rest) ← readEscape p.flags cs
    return (← p.addAtom a, rest)
  | '.' => return (← p.addAtom .any, cs)
  | '^' => return (← p.addAtom .edge, cs)
  | '$' => return (← p.addAtom .edge, cs)
  | c => return (← p.addAtom (.literal c false), cs)

/-- Read a pattern to its end. Every turn takes at least one character, so the bound is met by the number
of characters. -/
def readUpTo : Nat → Progress → List Char → Option Progress
  | 0, _, _ => none
  | bound + 1, p, cs =>
    match p.flags.skip cs with
    | [] => some p
    | c :: cs => do
      let (p, rest) ← p.step c cs
      readUpTo bound p rest

end Progress

/-- Find out whether a pattern can be used. It cannot if a group is still open at its end, or if it is
nested too deep. -/
def check (cs : List Char) : Except Flaw Unit :=
  match Progress.readUpTo (cs.length + 1) {} cs with
  | none => .error .unusable
  | some p =>
    if p.outer.isEmpty && p.group.height ≤ depthLimit then
      if p.boundary then .error .wordBoundary else .ok ()
    else .error .unusable

end SlotChain.Pattern

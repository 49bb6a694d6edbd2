import SlotChain.CommandLine.Basic

/-!
# Reading command line arguments

Arguments are read from left to right, and the first mistake or request met decides. An option takes
its value from the same word behind an equals sign, or else from the next word, unless that word is an
option itself. A value in a word of its own is judged only when the next option or operation word, or
the end, has been reached; an unknown option or an attached value that is not wanted, met before that,
goes first. Behind two dashes every word belongs to the operations.
-/

namespace SlotChain.CommandLine

/-- What a word looks like. -/
inductive Word where
  /-- Two dashes alone. -/
  | escape
  /-- Two dashes and a name, maybe with a value attached. -/
  | long (name : String) (value : Option String)
  /-- One dash and letters, the first of which decides. -/
  | short (letter : Char)
  /-- Anything else, one dash alone included. -/
  | plain
deriving Repr, DecidableEq

/-- Cut a text at its first equals sign. -/
def splitAtEquals : List Char → List Char × Option (List Char)
  | [] => ([], none)
  | c :: cs =>
    if c = '=' then ([], some cs)
    else
      let (name, value) := splitAtEquals cs
      (c :: name, value)

/-- Tell what a word looks like. -/
def Word.ofString (s : String) : Word :=
  match s.toList with
  | ['-', '-'] => .escape
  | '-' :: '-' :: cs =>
    let (name, value) := splitAtEquals cs
    .long (String.ofList name) (value.map String.ofList)
  | '-' :: c :: _ => .short c
  | _ => .plain

/-- The arguments read so far. -/
structure Progress where
  /-- The capacity, once it is given. -/
  capacity : Option UInt64 := none
  /-- The path of the script, once it is given. -/
  script : Option String := none
  /-- The words of the operations. -/
  ops : Array String := #[]
  /-- Whether there were words of operations before the script. -/
  opsFirst : Bool := false
  /-- The option met last, with its value if that has been met, as long as it has not been judged. -/
  pending : Option (Setting × Option String) := none

namespace Progress

/-- Enter the value of an option. -/
def enter (p : Progress) (s : Setting) (value : String) : Except Stop Progress :=
  match s with
  | .capacity =>
    if p.capacity.isSome then .error (.misuse (.repeated .capacity))
    else
      match Text.readWord value.toList with
      | .ok n => .ok { p with capacity := some (UInt64.ofNat n) }
      | .error flaw => .error (.misuse (.invalidCapacity value flaw))
  | .script =>
    if p.script.isSome then .error (.misuse (.repeated .script))
    else if value = "" then .error (.misuse (.missingValue .script))
    else .ok { p with script := some value }

/-- Judge the option met last. -/
def settle (p : Progress) : Except Stop Progress :=
  match p.pending with
  | none => .ok p
  | some (s, none) => .error (.misuse (.missingValue s))
  | some (s, some value) => { p with pending := none }.enter s value

/-- Add words of operations. -/
def addOps (p : Progress) (words : List String) : Progress :=
  { p with
    ops := p.ops ++ words
    opsFirst := p.opsFirst || p.script.isNone && !words.isEmpty }

/-- Go on with an option that takes a value, which may be attached. -/
def addSetting (p : Progress) (s : Setting) (value : Option String) : Except Stop Progress := do
  let p ← p.settle
  match value with
  | some value => p.enter s value
  | none => return { p with pending := some (s, none) }

/-- Judge the option met last and then stop. -/
def stopWith (p : Progress) (stop : Stop) : Except Stop Progress := do
  let _ ← p.settle
  .error stop

/-- Go on with a long option. -/
def addLong (p : Progress) (name : String) (value : Option String) : Except Stop Progress :=
  match name, value with
  | "capacity", value => p.addSetting .capacity value
  | "script", value => p.addSetting .script value
  | "help", none => p.stopWith (.help true)
  | "version", none => p.stopWith .version
  | "help", some value => .error (.misuse (.unexpectedValue value "--help"))
  | "version", some value => .error (.misuse (.unexpectedValue value "--version"))
  | name, _ => .error (.misuse (.unknownArgument ("--" ++ name)))

/-- Go on with a short option. -/
def addShort (p : Progress) (letter : Char) : Except Stop Progress :=
  match letter with
  | 'h' => p.stopWith (.help false)
  | 'V' => p.stopWith .version
  | c => .error (.misuse (.unknownArgument (String.ofList ['-', c])))

/-- Go on with a word that is no option: the value that an option waits for, or a word of the
operations. -/
def addPlain (p : Progress) (word : String) : Except Stop Progress :=
  match p.pending with
  | some (s, none) => .ok { p with pending := some (s, some word) }
  | _ => do return (← p.settle).addOps [word]

/-- Read words, up to the end. -/
def readWords (p : Progress) : List String → Except Stop Progress
  | [] => p.settle
  | word :: rest =>
    match Word.ofString word with
    | .escape => do return (← p.settle).addOps rest
    | .long name value => do (← p.addLong name value).readWords rest
    | .short letter => do (← p.addShort letter).readWords rest
    | .plain => do (← p.addPlain word).readWords rest

/-- The arguments, once everything has been read. -/
def finish (p : Progress) : Except Stop Arguments :=
  if p.script.isSome && !p.ops.isEmpty then .error (.misuse (.scriptWithOps p.opsFirst))
  else .ok ⟨p.capacity.getD 0, p.script, p.ops.toList⟩

end Progress

/-- Read the arguments of the program. -/
def parse (argv : List String) : Except Stop Arguments := do
  (← Progress.readWords {} argv).finish

end SlotChain.CommandLine

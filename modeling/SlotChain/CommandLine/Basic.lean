import SlotChain.ListConfig
import SlotChain.Text.ControlFree
import SlotChain.Text.Lines

/-!
# Command line arguments

The arguments of the program: two options that take a value, and the words of the operations. What
stops the program before it starts is a request for help or for the version, or a mistake in the
arguments.
-/

namespace SlotChain

/-- The arguments of a run. -/
structure Arguments where
  /-- The number of cells to reserve. -/
  capacity : UInt64 := 0
  /-- The path of a script to load. -/
  script : Option String := none
  /-- The words of the operations. -/
  ops : List String := []
deriving Repr, DecidableEq

namespace Arguments

/-- The list configuration that follows from the arguments. -/
def config (a : Arguments) : ListConfig := ⟨a.capacity⟩

/-- The shape of the arguments for inspection. -/
def shape (a : Arguments) : Text.Shape :=
  .record "Args" [
    .field "capacity" (.number a.capacity.toNat),
    .field "script" (match a.script with
      | some path => .tuple "Some" [.string path]
      | none => .atom "None"),
    .field "ops" (.list (a.ops.map Text.Shape.string))]

end Arguments

namespace CommandLine

/-- An option that takes a value. -/
inductive Setting where
  | capacity
  | script
deriving Repr, DecidableEq

/-- How an option is written in messages. -/
def Setting.usage : Setting → String
  | capacity => "--capacity <CAPACITY>"
  | script => "--script <SCRIPT>"

/-- How the words of the operations are written in messages. -/
def opsUsage : String := "[OPS]..."

/-- A mistake in the arguments. -/
inductive Misuse where
  /-- An option is none of those known. -/
  | unknownArgument (name : String)
  /-- The value of the capacity is no machine word. -/
  | invalidCapacity (value : String) (flaw : Text.WordFlaw)
  /-- An option has no value, or an empty one where that is none. -/
  | missingValue (s : Setting)
  /-- An option is given twice. -/
  | repeated (s : Setting)
  /-- A script and words of operations are both given. -/
  | scriptWithOps (opsFirst : Bool)
  /-- An option that takes no value has one attached. -/
  | unexpectedValue (value name : String)
deriving Repr, DecidableEq

/-- An argument as a message quotes it. -/
def quotedArgument (rule : Text.SpacingRule) (s : String) : String :=
  "'" ++ Text.dropControls rule s ++ "'"

/-- The whole text of a mistake, for a message that is at hand as a whole or is written piece by
piece. -/
def Misuse.text (rule : Text.SpacingRule) : Misuse → String
  | unknownArgument name => "error: unexpected argument " ++ quotedArgument rule name ++ " found"
  | invalidCapacity value flaw =>
    "error: invalid value " ++ quotedArgument rule value ++ " for '" ++ Setting.capacity.usage
      ++ "': " ++ flaw.message
  | missingValue s => "error: a value is required for '" ++ s.usage ++ "' but none was supplied"
  | repeated s => "error: the argument '" ++ s.usage ++ "' cannot be used multiple times"
  | scriptWithOps opsFirst =>
    let (first, second) :=
      if opsFirst then (opsUsage, Setting.script.usage) else (Setting.script.usage, opsUsage)
    "error: the argument '" ++ first ++ "' cannot be used with '" ++ second ++ "'"
  | unexpectedValue value name =>
    "error: unexpected value " ++ quotedArgument rule value ++ " for '" ++ name
      ++ "' found; no more were expected"

/-- The message of a mistake: the first line of its whole text, which may quote an argument of several
lines. -/
def Misuse.message (m : Misuse) : String := Text.firstLine (m.text .ends)

/-- Why the program does not start. -/
inductive Stop where
  /-- Help is asked for, in full or in short. -/
  | help (full : Bool)
  /-- The version is asked for. -/
  | version
  /-- There is a mistake in the arguments. -/
  | misuse (m : Misuse)
deriving Repr, DecidableEq

end CommandLine

end SlotChain

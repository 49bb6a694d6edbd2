import SlotChain.CommandError
import SlotChain.Text.Blank
import SlotChain.Text.Lines

/-!
# Scripts

A script holds one operation a line. White space around a line does not matter; empty lines and lines
that start with a number sign hold nothing. The name of an operation ends at the first white space,
and an insertion takes the trimmed rest of the line for its value. The first line that cannot be read
decides about the whole script.
-/

namespace SlotChain.Script

/-- Read the operation on a trimmed line. -/
def readLine (line : List Char) : Except OpError Op :=
  let (word, rest) := Text.splitAtBlank line
  match Verb.ofName? (String.ofList word), rest with
  | none, _ => .error (.unknownOp (String.ofList word))
  | some (.complete op), _ => .ok op
  | some (.insertion i), none => .error (.missingValue i)
  | some (.insertion i), some value => .ok (i.op (String.ofList (Text.trim value)))

/-- Whether a trimmed line holds an operation. -/
def isEffective : List Char → Bool
  | [] => false
  | c :: _ => c != '#'

/-- Read the operations on lines, the first of which has the given number. -/
def readLines : Nat → List (List Char) → Except CommandError (List Op)
  | _, [] => .ok []
  | n, line :: rest =>
    let text := Text.trim line
    if isEffective text then
      match readLine text with
      | .error e => .error (.scriptLine n e)
      | .ok op => (readLines (n + 1) rest).map (op :: ·)
    else readLines (n + 1) rest

/-- Read the operations of a script. -/
def parse (text : String) : Except CommandError (List Op) := readLines 1 (Text.lines text.toList)

/-- Read the operations of a script from the bytes of its file, which has to hold at least one. -/
def ofBytes (bytes : ByteArray) : Except CommandError (List Op) :=
  match String.fromUTF8? bytes with
  | none => .error (.io .invalidText)
  | some text =>
    match parse text with
    | .error e => .error e
    | .ok [] => .error (.other "script contains no operation")
    | .ok ops => .ok ops

/-- Read the operations of a script from what reading its file gave. -/
def load (file : Except IoError ByteArray) : Except CommandError (List Op) :=
  match file with
  | .error e => .error (.io e)
  | .ok bytes => ofBytes bytes

end SlotChain.Script

import SlotChain.Text.Shape

/-!
# Input and output errors

What can go wrong when a file is read or an output is written. Some errors are reported by the system
under a number, some are found by the reader or the writer, and some carry a text of their own.
-/

namespace SlotChain

/-- Why a file could not be read or an output not be written. -/
inductive IoError where
  /-- There is nothing under the path. -/
  | notFound
  /-- A path leads on through something that is no directory. -/
  | notDirectory
  /-- A directory was to be read like a file. -/
  | isDirectory
  /-- The bytes of a file are not the encoding of any text. -/
  | invalidText
  /-- The output takes no more bytes. -/
  | outputFull
  /-- An error told by its text. -/
  | custom (text : String)
deriving Repr, DecidableEq

namespace IoError

/-- The number under which the system reports the error. -/
def systemCode? : IoError → Option Nat
  | notFound => some 2
  | notDirectory => some 20
  | isDirectory => some 21
  | _ => none

/-- The name of the kind of error. -/
def kind : IoError → String
  | notFound => "NotFound"
  | notDirectory => "NotADirectory"
  | isDirectory => "IsADirectory"
  | invalidText => "InvalidData"
  | outputFull => "WriteZero"
  | custom _ => "Other"

/-- What went wrong, in words. -/
def description : IoError → String
  | notFound => "No such file or directory"
  | notDirectory => "Not a directory"
  | isDirectory => "Is a directory"
  | invalidText => "stream did not contain valid UTF-8"
  | outputFull => "failed to write whole buffer"
  | custom text => text

/-- The text of the error, with the system's number where it has one. -/
def message (e : IoError) : String :=
  match e.systemCode? with
  | some code => e.description ++ " (os error " ++ Text.natural code ++ ")"
  | none => e.description

/-- The shape of the error for inspection. -/
def shape (e : IoError) : Text.Shape :=
  match e, e.systemCode? with
  | custom text, _ =>
    .record "Custom" [.field "kind" (.atom e.kind), .field "error" (.string text)]
  | _, some code =>
    .record "Os" [.field "code" (.number code), .field "kind" (.atom e.kind),
      .field "message" (.string e.description)]
  | _, none =>
    .record "Error" [.field "kind" (.atom e.kind), .field "message" (.string e.description)]

end IoError

end SlotChain

import SlotChain.IoError
import SlotChain.Op.Verb
import SlotChain.Text.Report

/-!
# Command errors

Everything that can go wrong before and while operations run. An error has a message and may have
causes, each with a message and a shape of its own; the causes are told apart from the message, so that
none of them is told twice.
-/

namespace SlotChain

/-- What went wrong with a command. -/
inductive CommandError where
  /-- An operation cannot be read. -/
  | op (e : OpError)
  /-- A line of a script, counted from one, holds no operation that can be read. -/
  | scriptLine (line : Nat) (source : OpError)
  /-- A file cannot be read or an output cannot be written. -/
  | io (e : IoError)
  /-- An error told by its text. -/
  | other (text : String)
deriving Repr, DecidableEq

/-- What an error shows of one of its causes. -/
structure Cause where
  /-- The text of the cause. -/
  message : String
  /-- The shape of the cause for inspection. -/
  shape : Text.Shape

namespace CommandError

/-- The text of the error. -/
def message : CommandError → String
  | op e => e.message
  | scriptLine line _ => "script line " ++ Text.natural line
  | io e => "io error: " ++ e.message
  | other text => text

/-- The shape of the error for inspection. -/
def shape : CommandError → Text.Shape
  | op e => e.shape
  | scriptLine line source =>
    .record "Script" [.field "line" (.number line), .field "source" source.shape]
  | io e => .tuple "Io" [e.shape]
  | other text => .tuple "Other" [.message text]

/-- The causes of the error, the nearest first. -/
def causes : CommandError → List Cause
  | op _ => []
  | scriptLine _ source => [⟨source.message, source.shape⟩]
  | io e => [⟨e.message, e.shape⟩]
  | other _ => []

/-- The messages of the error and of its causes. -/
def messages (e : CommandError) : List String := e.message :: e.causes.map Cause.message

/-- All messages on one line. -/
def chain (e : CommandError) : String := ": ".intercalate e.messages

/-- The report of the error and its causes. -/
def report (e : CommandError) : String := Text.report e.message (e.causes.map Cause.message)

/-- The message of the last cause, or of the error itself. -/
def root (e : CommandError) : String := e.messages.getLastD e.message

end CommandError

end SlotChain

import SlotChain.Chain.Bulk
import SlotChain.CommandError
import SlotChain.Display
import SlotChain.Sink

/-!
# Running operations

An operation changes or reads a list and writes its result as one line. The change comes first: a
deletion whose line cannot be written any more has removed its item all the same. A run applies
operations in order and ends with the first whose output fails.
-/

namespace SlotChain

/-- What operations work on. -/
structure RunState (A : Type → Type := Arena) where
  /-- The list. -/
  list : Chain String A
  /-- The output. -/
  output : Sink

/-- What a deletion prints when there is nothing to delete. Removed items are printed in quotation
marks, so that none of them can look like this. -/
def emptyMark : String := "(empty)"

namespace RunState

variable {A : Type → Type} [SlotMap A]

/-- Act on the list alone. -/
def onList {β : Type} (act : Act (Chain String A) β) : Act (RunState A) β := fun s =>
  (act s.list).map fun o => { o with state := { s with list := o.state } }

/-- Write pieces of text and end the line. -/
def writeLine (pieces : List String) : Act (RunState A) (Except CommandError Unit) := fun s =>
  let (output, result) := s.output.writeAll (pieces ++ ["\n"])
  .ok ⟨result.mapError .io, { s with output }, []⟩

end RunState

namespace Op

variable {A : Type → Type} [SlotMap A]

/-- The pieces of the line that tells what a deletion removed. -/
def removedPieces : Option String → List String
  | some value => [Text.quoted value]
  | none => [emptyMark]

/-- Apply an operation, without the event that announces it. -/
def execute : Op → Act (RunState A) (Except CommandError Unit)
  | prepend value => do
    RunState.onList (Chain.prepend value)
    return .ok ()
  | append value => do
    RunState.onList (Chain.append value)
    return .ok ()
  | deleteHead => do
    let removed ← RunState.onList Chain.deleteHead
    RunState.writeLine (removedPieces removed)
  | deleteTail => do
    let removed ← RunState.onList Chain.deleteTail
    RunState.writeLine (removedPieces removed)
  | len => do
    let n ← RunState.onList (Act.inspect fun c => .ok c.len)
    RunState.writeLine [Text.natural n]
  | print => do
    let pieces ← RunState.onList (Act.inspect Chain.displayPieces)
    RunState.writeLine pieces

/-- Announce an operation and apply it. -/
def apply (op : Op) : Act (RunState A) (Except CommandError Unit) := fun s =>
  (op.execute s).map fun o => { o with events := .applying op.text s.list.len :: o.events }

/-- Apply operations in order, up to the first that fails. -/
def run : List Op → Act (RunState A) (Except CommandError Unit)
  | [] => return .ok ()
  | op :: rest => do
    match ← op.apply with
    | .ok () => run rest
    | .error e => return .error e

/-- What applying one operation of a run has done. -/
structure Applied (A : Type → Type := Arena) where
  /-- The operation. -/
  op : Op
  /-- Whether its output could be written. -/
  result : Except CommandError Unit
  /-- The bytes that it wrote. -/
  output : List UInt8
  /-- The list after it. -/
  list : Chain String A
  /-- The events that it emitted. -/
  events : List Event

/-- Apply operations one at a time, up to the first that fails, and keep a record of each. -/
def applyEach : List Op → RunState A → Except Fault (List (Applied A))
  | [], _ => .ok []
  | op :: rest, s => do
    let o ← op.apply s
    let record : Applied A :=
      { op
        result := o.answer
        output := o.state.output.written.drop s.output.written.length
        list := o.state.list
        events := o.events }
    match o.answer with
    | .ok () => return record :: (← applyEach rest o.state)
    | .error _ => return [record]

/-- A run on a new list that holds some items at first, against an output with a limit. -/
def initialState (capacity : Nat) (start : List String) (limit : Option Nat) :
    Except Fault (RunState A) := do
  let built ← Chain.extend start (← Chain.withCapacity capacity)
  return ⟨built.state, Sink.ofLimit limit⟩

end Op

end SlotChain

import SlotChain.Op.Basic

/-!
# Reading operations from words

A word names an operation. Some names are an operation by themselves, and an insertion still needs a
value. In a sequence of words an insertion takes the next word for its value, whatever it is.
-/

namespace SlotChain

/-- What a name stands for. -/
inductive Verb where
  /-- An operation that needs nothing more. -/
  | complete (op : Op)
  /-- An insertion, which needs a value. -/
  | insertion (i : Insertion)
deriving Repr, DecidableEq

/-- The verb of a name. There are seven names: the length goes by two. -/
def Verb.ofName? : String → Option Verb
  | "prepend" => some (.insertion .prepend)
  | "append" => some (.insertion .append)
  | "delete-head" => some (.complete .deleteHead)
  | "delete-tail" => some (.complete .deleteTail)
  | "len" => some (.complete .len)
  | "length" => some (.complete .len)
  | "print" => some (.complete .print)
  | _ => none

/-- Why an operation cannot be read. -/
inductive OpError where
  /-- The name is none of the seven. -/
  | unknownOp (name : String)
  /-- An insertion has no value. -/
  | missingValue (i : Insertion)
deriving Repr, DecidableEq

namespace OpError

/-- The text of the error. -/
def message : OpError → String
  | unknownOp name => "unknown operation: " ++ name
  | missingValue i => "operation `" ++ i.name ++ "` requires a value"

/-- The shape of the error for inspection. -/
def shape : OpError → Text.Shape
  | unknownOp name => .tuple "UnknownOp" [.string name]
  | missingValue i => .tuple "MissingValue" [.string i.name]

end OpError

/-- Read operations from words, one after the other, up to the first that cannot be read. -/
def Op.ofWords : List String → Except OpError (List Op)
  | [] => .ok []
  | word :: rest =>
    match Verb.ofName? word, rest with
    | none, _ => .error (.unknownOp word)
    | some (.complete op), rest => (ofWords rest).map (op :: ·)
    | some (.insertion i), [] => .error (.missingValue i)
    | some (.insertion i), value :: rest => (ofWords rest).map (i.op value :: ·)

end SlotChain

import SlotChain.Text.Decimal

/-!
# Events

Every mutation of a chain and every operation applied from the command line leaves an event behind.
Events never influence a result; they are what a log shows of a run.
-/

namespace SlotChain

/-- How important an event is, from the most to the least important. -/
inductive Level where
  | error
  | warn
  | info
  | debug
  | trace
deriving Repr, DecidableEq

/-- The name of a level as a log prints it. -/
def Level.name : Level → String
  | .error => "ERROR"
  | .warn => "WARN"
  | .info => "INFO"
  | .debug => "DEBUG"
  | .trace => "TRACE"

/-- The place of a level on the scale from one, the most important, to five. -/
def Level.rank : Level → Nat
  | .error => 1
  | .warn => 2
  | .info => 3
  | .debug => 4
  | .trace => 5

/-- The four ways in which a chain changes by one item. -/
inductive Mutation where
  | prepend
  | append
  | deleteHead
  | deleteTail
deriving Repr, DecidableEq

/-- The words that name a mutation in its event. -/
def Mutation.words : Mutation → String
  | .prepend => "prepend"
  | .append => "append"
  | .deleteHead => "delete from head"
  | .deleteTail => "delete from tail"

/-- Something that happened during a run. -/
inductive Event where
  /-- A chain changed by one item and has this many items now. -/
  | mutated (change : Mutation) (len : Nat)
  /-- An operation, given by its text, is about to be applied to a list of this length. -/
  | applying (op : String) (len : Nat)
  /-- The program starts with these arguments. -/
  | starting (arguments : String)
deriving Repr, DecidableEq

namespace Event

/-- Mutations are traced, everything the command line does is for debugging. -/
def level : Event → Level
  | mutated .. => .trace
  | applying .. => .debug
  | starting .. => .debug

/-- The part of the program that an event comes from. -/
def target : Event → String
  | mutated .. => "dlist::list"
  | applying .. => "dlist::args::op"
  | starting .. => "dlist"

/-- What happened, in words. -/
def message : Event → String
  | mutated change _ => "[dlist]: " ++ change.words
  | applying .. => "[dlist-cli]: apply"
  | starting .. => "[dlist-cli]: start"

/-- The named values that an event carries, as text, in the order in which a log shows them. -/
def fields : Event → List (String × String)
  | mutated _ len => [("len", Text.natural len)]
  | applying op len => [("op", op), ("len", Text.natural len)]
  | starting arguments => [("args", arguments)]

end Event

end SlotChain

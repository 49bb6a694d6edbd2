import SlotChain.Text.Shape

/-!
# Operations

The operations of the command language, which work on one list of strings. An operation has a text,
in which it is logged and in which a script may write it, and a form of separate words, in which a
command line passes it.
-/

namespace SlotChain

/-- An operation on a list of strings. -/
inductive Op where
  /-- Insert a value as the new head. -/
  | prepend (value : String)
  /-- Insert a value as the new tail. -/
  | append (value : String)
  /-- Remove the head and print it. -/
  | deleteHead
  /-- Remove the tail and print it. -/
  | deleteTail
  /-- Print the number of items. -/
  | len
  /-- Print the display text of the list. -/
  | print
deriving Repr, DecidableEq

/-- The operations that need a value. -/
inductive Insertion where
  | prepend
  | append
deriving Repr, DecidableEq

namespace Insertion

/-- The name of an insertion. -/
def name : Insertion → String
  | prepend => "prepend"
  | append => "append"

/-- The insertion of a value. -/
def op : Insertion → String → Op
  | prepend => .prepend
  | append => .append

end Insertion

namespace Op

/-- The name of an operation. -/
def name : Op → String
  | prepend _ => "prepend"
  | append _ => "append"
  | deleteHead => "delete-head"
  | deleteTail => "delete-tail"
  | len => "len"
  | print => "print"

/-- The value that an insertion inserts. -/
def value? : Op → Option String
  | prepend value => some value
  | append value => some value
  | _ => none

/-- The text of an operation: its name, and behind a space the value as it is. -/
def text (op : Op) : String :=
  match op.value? with
  | some value => op.name ++ " " ++ value
  | none => op.name

/-- The words of an operation: its name, and the value as a word of its own. -/
def words (op : Op) : List String := op.name :: op.value?.toList

/-- The shape of an operation for inspection. -/
def shape : Op → Text.Shape
  | prepend value => .tuple "Prepend" [.string value]
  | append value => .tuple "Append" [.string value]
  | deleteHead => .atom "DeleteHead"
  | deleteTail => .atom "DeleteTail"
  | len => .atom "Len"
  | print => .atom "Print"

/-- The demonstration: a list of two items is built and shown after every step. -/
def demo : List Op :=
  [len, append "Thiago", print, len, append "Mario", print, len]

end Op

end SlotChain

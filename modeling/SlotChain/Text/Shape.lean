import SlotChain.Text.Decimal
import SlotChain.Text.Quoted

/-!
# Shapes for inspection

The inspection text of a value shows how it is built. It is written either on one line or spread over
many, with every member on a line of its own, indented by four spaces and followed by a comma.
-/

namespace SlotChain.Text

/-- What an inspection text shows of a value. -/
inductive Shape where
  /-- A value that is shown by a text of one line. -/
  | atom (text : String)
  /-- A free text: shown as it is on one line, and quoted when spread out. -/
  | message (text : String)
  /-- A member with a label in front. -/
  | field (label : String) (value : Shape)
  /-- Members between square brackets. -/
  | list (members : List Shape)
  /-- Members between parentheses behind a name. -/
  | tuple (name : String) (members : List Shape)
  /-- Labelled members between braces behind a name. -/
  | record (name : String) (members : List Shape)

namespace Shape

/-- A text in quotation marks. -/
def string (s : String) : Shape := atom (quoted s)

/-- A whole number in decimal notation. -/
def number (n : Nat) : Shape := atom (natural n)

mutual

/-- The inspection text on one line. -/
def compact : Shape → String
  | atom text => text
  | message text => text
  | field label value => label ++ ": " ++ value.compact
  | list members => "[" ++ ", ".intercalate (compactAll members) ++ "]"
  | tuple name members => name ++ "(" ++ ", ".intercalate (compactAll members) ++ ")"
  | record name members => name ++ " \x7b " ++ ", ".intercalate (compactAll members) ++ " \x7d"

/-- The one-line texts of several values. -/
def compactAll : List Shape → List String
  | [] => []
  | s :: rest => s.compact :: compactAll rest

end

/-- Put a text in front of the first line. -/
def label (front : String) : List String → List String
  | [] => [front]
  | line :: rest => (front ++ line) :: rest

/-- Put a comma behind the last line. -/
def comma : List String → List String
  | [] => [","]
  | [line] => [line ++ ","]
  | line :: rest => line :: comma rest

/-- Members between an opening and a closing line; without members both share one line. -/
def block (opening closing : String) : List (List String) → List String
  | [] => [opening ++ closing]
  | members => opening :: (members.flatMap fun m => (comma m).map ("    " ++ ·)) ++ [closing]

mutual

/-- The lines of the spread-out inspection text. -/
def lines : Shape → List String
  | atom text => [text]
  | message text => [quoted text]
  | field front value => label (front ++ ": ") value.lines
  | list members => block "[" "]" (linesAll members)
  | tuple name members => block (name ++ "(") ")" (linesAll members)
  | record name members => block (name ++ " \x7b") "\x7d" (linesAll members)

/-- The lines of several values, one group for each. -/
def linesAll : List Shape → List (List String)
  | [] => []
  | s :: rest => s.lines :: linesAll rest

end

/-- The inspection text spread over many lines. -/
def pretty (s : Shape) : String := "\n".intercalate s.lines

end Shape

end SlotChain.Text

import SlotChain.Text.Decimal

/-!
# Reports of causes

A report tells what went wrong and, below an empty line, what caused it. A single cause is indented;
several are numbered from the nearest to the last. When a cause has several lines, the further ones
are indented to stand below the first.
-/

namespace SlotChain.Text

/-- A number with spaces in front of it, to fill five places. -/
def padNumber (n : Nat) : String :=
  let digits := natural n
  "".pushn ' ' (5 - digits.length) ++ digits

/-- The lines of a cause below each other, behind a given margin. -/
def hang (first further : String) (text : String) : String :=
  first ++ ("\n" ++ further).intercalate (text.splitOn "\n")

/-- The numbered causes. -/
def numberedCauses : Nat → List String → List String
  | _, [] => []
  | n, cause :: rest => hang (padNumber n ++ ": ") "       " cause :: numberedCauses (n + 1) rest

/-- The report of a message and its causes, the nearest first. -/
def report (message : String) : List String → String
  | [] => message
  | [cause] => message ++ "\n\nCaused by:\n" ++ hang "    " "    " cause
  | causes => message ++ "\n\nCaused by:\n" ++ "\n".intercalate (numberedCauses 0 causes)

end SlotChain.Text

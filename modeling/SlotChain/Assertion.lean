import SlotChain.Text.Decimal

/-!
# Assertions

An assertion compares two numbers and fails with a text that says what was expected of them. A
message given with it is told as well: after the expectation where the two numbers are told, and in
place of everything else where they are not.
-/

namespace SlotChain

/-- What is asserted of two numbers. -/
inductive Assertion where
  /-- A condition, namely that they are equal. -/
  | condition
  /-- That the left one equals the right one. -/
  | equal
  /-- That the left one differs from the right one. -/
  | different
deriving Repr, DecidableEq

namespace Assertion

/-- Whether two numbers are as asserted. -/
def holds (a : Assertion) (left right : Int) : Bool :=
  match a with
  | condition => left == right
  | equal => left == right
  | different => left != right

/-- The text of a failed comparison. -/
def comparisonText (operator : String) (left right : Int) (message : Option String) : String :=
  "assertion `left " ++ operator ++ " right` failed" ++ (message.map (": " ++ ·)).getD ""
    ++ "\n  left: " ++ Text.integer left ++ "\n right: " ++ Text.integer right

/-- The text of a failed assertion. -/
def failureText (a : Assertion) (left right : Int) (message : Option String) : String :=
  match a with
  | condition => message.getD "assertion failed: a == b"
  | equal => comparisonText "==" left right message
  | different => comparisonText "!=" left right message

/-- Check an assertion about two numbers. -/
def check (a : Assertion) (left right : Int) (message : Option String) : Except String Unit :=
  if a.holds left right then .ok () else .error (a.failureText left right message)

end Assertion

end SlotChain

import SlotChain.Text.Decimal
import SlotChain.Text.Quoted

/-!
# Cuts by bytes

A text can be cut behind a number of its bytes only where a character starts, or where the text ends. A
cut anywhere else would tear a character, and no part of the text comes of it.
-/

namespace SlotChain.Text

/-- The two ends of a part that is cut out of a text. -/
inductive CutSide where
  | first
  | last
deriving Repr, DecidableEq

/-- How an end is named in messages. -/
def CutSide.name : CutSide → String
  | first => "start"
  | last => "end"

/-- A cut that would tear a character. -/
structure Tear where
  /-- The end of the part for which the cut is made. -/
  side : CutSide
  /-- The number of bytes in front of the cut. -/
  index : Nat
  /-- The character that the cut goes through. -/
  char : Char
  /-- The number of bytes in front of that character. -/
  offset : Nat
deriving Repr, DecidableEq

/-- The text under which a tear is reported. -/
def Tear.message (t : Tear) : String :=
  t.side.name ++ " byte index " ++ natural t.index ++ " is not a char boundary; it is inside '"
    ++ String.ofList (escapeChar t.char) ++ "' (bytes " ++ natural t.offset ++ ".."
    ++ natural (t.offset + t.char.utf8Size) ++ " of string)"

/-- Cut a text behind a number of bytes, some of which have been passed before the text starts. What
lies beyond the end counts as the end. -/
def cutAt (side : CutSide) (index passed : Nat) :
    List Char → Except Tear (List Char × List Char)
  | [] => .ok ([], [])
  | c :: cs =>
    if index ≤ passed then .ok ([], c :: cs)
    else if passed + c.utf8Size ≤ index then do
      let (front, rest) ← cutAt side index (passed + c.utf8Size) cs
      return (c :: front, rest)
    else .error ⟨side, index, c, passed⟩

/-- The part of a text behind a number of bytes. -/
def partFrom (start : Nat) (text : List Char) : Except Tear String := do
  let (_, rest) ← cutAt .first start 0 text
  return String.ofList rest

/-- The part of a text between two numbers of bytes. -/
def partBetween (start stop : Nat) (text : List Char) : Except Tear String := do
  let (_, rest) ← cutAt .first start 0 text
  let (part, _) ← cutAt .last stop start rest
  return String.ofList part

end SlotChain.Text

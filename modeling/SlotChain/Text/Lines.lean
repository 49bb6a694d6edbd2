/-!
# Lines

A text is cut into lines at each line feed, with or without a carriage return before it. The end of
the text ends the last line as well, unless a line feed has just done so.
-/

namespace SlotChain.Text

/-- The lines of a text, without their ends. -/
def lines : List Char → List (List Char)
  | [] => []
  | '\n' :: rest => [] :: lines rest
  | '\r' :: '\n' :: rest => [] :: lines rest
  | c :: rest =>
    match lines rest with
    | [] => [[c]]
    | line :: more => (c :: line) :: more

/-- The first line of a text. -/
def firstLine (s : String) : String := String.ofList ((lines s.toList).headD [])

/-- A text with plain line feeds, and none behind the last line. -/
def plainLines (s : String) : String := "\n".intercalate ((lines s.toList).map String.ofList)

end SlotChain.Text

import SlotChain.Text.CodeRange

/-!
# White space

The characters of the Unicode property White_Space, and the words and margins that they mark off.
-/

namespace SlotChain.Text

/-- The code points with the property White_Space. -/
def blankRanges : List (Nat × Nat) := [
  (0x9, 0xd), (0x20, 0x20), (0x85, 0x85), (0xa0, 0xa0), (0x1680, 0x1680), (0x2000, 0x200a),
  (0x2028, 0x2029), (0x202f, 0x202f), (0x205f, 0x205f), (0x3000, 0x3000)]

/-- Whether a character is white space. -/
def isBlank (c : Char) : Bool := inRanges c.toNat blankRanges

/-- A text without the white space in front of it. -/
def trimLeft (cs : List Char) : List Char := cs.dropWhile isBlank

/-- A text without the white space behind it. -/
def trimRight : List Char → List Char
  | [] => []
  | c :: cs =>
    match trimRight cs with
    | [] => if isBlank c then [] else [c]
    | d :: ds => c :: d :: ds

/-- A text without the white space around it. -/
def trim (cs : List Char) : List Char := trimRight (trimLeft cs)

/-- The characters before the first white space, and what follows that one character. Without any
white space there is no second part. -/
def splitAtBlank : List Char → List Char × Option (List Char)
  | [] => ([], none)
  | c :: cs =>
    if isBlank c then ([], some cs)
    else
      let (word, rest) := splitAtBlank cs
      (c :: word, rest)

end SlotChain.Text

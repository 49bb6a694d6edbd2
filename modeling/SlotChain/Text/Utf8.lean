/-!
# Text as bytes

The encoding of texts as bytes, and a reader for bytes that may have been cut anywhere. The reader
goes through the bytes once; wherever they start a character without completing it, and wherever no
character can start, it puts one replacement character.
-/

namespace SlotChain.Text

/-- The bytes of a text. -/
def utf8 (s : String) : List UInt8 := s.toList.flatMap String.utf8EncodeChar

/-- The character that stands for bytes that are no character. -/
def replacement : Char := Char.ofNat 0xfffd

/-- A character of several bytes, some of which have been read. -/
structure PartialChar where
  /-- The bits of the code point read so far. -/
  bits : Nat
  /-- The number of bytes after the next one. -/
  further : Nat
  /-- The least value that the next byte may have. -/
  least : UInt8
  /-- The greatest value that the next byte may have. -/
  greatest : UInt8

/-- The start of a character of several bytes. The bounds on the second byte keep out overlong forms,
surrogates and code points beyond the last. -/
def PartialChar.ofLead? (b : UInt8) : Option PartialChar :=
  if b < 0xc2 then none
  else if b < 0xe0 then some ⟨b.toNat % 32, 0, 0x80, 0xbf⟩
  else if b = 0xe0 then some ⟨0, 1, 0xa0, 0xbf⟩
  else if b = 0xed then some ⟨13, 1, 0x80, 0x9f⟩
  else if b < 0xf0 then some ⟨b.toNat % 16, 1, 0x80, 0xbf⟩
  else if b = 0xf0 then some ⟨0, 2, 0x90, 0xbf⟩
  else if b < 0xf4 then some ⟨b.toNat % 8, 2, 0x80, 0xbf⟩
  else if b = 0xf4 then some ⟨4, 2, 0x80, 0x8f⟩
  else none

/-- Read a byte where a character may start. -/
def startChar (b : UInt8) : List Char × Option PartialChar :=
  if b < 0x80 then ([Char.ofNat b.toNat], none)
  else
    match PartialChar.ofLead? b with
    | some p => ([], some p)
    | none => ([replacement], none)

/-- Read one byte: the characters that it completes, and the character left incomplete. -/
def readByte (state : Option PartialChar) (b : UInt8) : List Char × Option PartialChar :=
  match state with
  | none => startChar b
  | some p =>
    if p.least ≤ b ∧ b ≤ p.greatest then
      let bits := p.bits * 64 + b.toNat % 64
      match p.further with
      | 0 => ([Char.ofNat bits], none)
      | n + 1 => ([], some ⟨bits, n, 0x80, 0xbf⟩)
    else
      let (cs, state) := startChar b
      (replacement :: cs, state)

/-- Read bytes, beginning with a character left incomplete before. -/
def decodeFrom : Option PartialChar → List UInt8 → List Char
  | none, [] => []
  | some _, [] => [replacement]
  | state, b :: bs =>
    let (cs, state) := readByte state b
    cs ++ decodeFrom state bs

/-- The text of bytes, with replacement characters for what is no text. -/
def decodeLossy (bytes : List UInt8) : String := String.ofList (decodeFrom none bytes)

end SlotChain.Text

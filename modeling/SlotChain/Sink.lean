import SlotChain.IoError
import SlotChain.Text.Utf8

/-!
# Limited output

An output takes bytes until it is full. A piece of text that does not fit is written as far as it
does, and then the write fails; an empty piece always fits.
-/

namespace SlotChain

/-- An output and what has been written to it. -/
structure Sink where
  /-- The number of bytes that it still takes, or nothing for an output without a limit. -/
  room : Option Nat
  /-- The bytes written so far. -/
  written : List UInt8

namespace Sink

/-- A new output with a limit, if any. -/
def ofLimit (limit : Option Nat) : Sink := ⟨limit, []⟩

/-- Write one piece of text, and tell whether all of it was taken. -/
def write (s : Sink) (piece : String) : Sink × Except IoError Unit :=
  let bytes := Text.utf8 piece
  match s.room with
  | none => ({ s with written := s.written ++ bytes }, .ok ())
  | some room =>
    (⟨some (room - bytes.length), s.written ++ bytes.take room⟩,
      if bytes.length ≤ room then .ok () else .error .outputFull)

/-- Write pieces of text, up to the first that is not taken whole. -/
def writeAll (s : Sink) : List String → Sink × Except IoError Unit
  | [] => (s, .ok ())
  | piece :: rest =>
    match s.write piece with
    | (s, .ok ()) => s.writeAll rest
    | (s, .error e) => (s, .error e)

end Sink

end SlotChain

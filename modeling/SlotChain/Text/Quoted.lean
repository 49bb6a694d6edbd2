import SlotChain.Text.GraphemeExtend
import SlotChain.Text.Unprintable

/-!
# Quoted text

A quoted text stands between double quotation marks and shows every character unambiguously on one
line. A quotation mark and a backslash follow a backslash, four control characters have names of their
own, and a character that a page would not show by itself is written as its code point.
-/

namespace SlotChain.Text

/-- The code point of a character, in hexadecimal between braces. -/
def escapeCode (c : Char) : List Char :=
  ['\\', 'u', '\x7b'] ++ Nat.toDigits 16 c.toNat ++ ['\x7d']

/-- How a character is written inside quotation marks. -/
def escapeChar (c : Char) : List Char :=
  if c = '"' then ['\\', '"']
  else if c = '\\' then ['\\', '\\']
  else if c = '\x00' then ['\\', '0']
  else if c = '\t' then ['\\', 't']
  else if c = '\n' then ['\\', 'n']
  else if c = '\r' then ['\\', 'r']
  else if isGraphemeExtend c || isUnprintable c then escapeCode c
  else [c]

/-- A text between quotation marks. -/
def quoted (s : String) : String :=
  String.ofList ('"' :: s.toList.flatMap escapeChar ++ ['"'])

end SlotChain.Text

import SlotChain.Json.Quoted

/-!
# Skipping JSON values

A value that nobody asks for is only checked for its form, however deep it is nested. Numbers may have
any size.
-/

namespace SlotChain.Json

/-- Skip an exponent, if there is one. -/
def skipExponent : List Char → Except Flaw (List Char)
  | [] => .ok []
  | c :: cs =>
    if c = 'e' ∨ c = 'E' then
      let digits := match cs with
        | '+' :: rest => rest
        | '-' :: rest => rest
        | rest => rest
      if startsWithDigit digits then .ok (skipDigits digits) else .error .malformed
    else .ok (c :: cs)

/-- Skip a fraction and an exponent, as far as there are any. -/
def skipFraction : List Char → Except Flaw (List Char)
  | '.' :: cs => if startsWithDigit cs then skipExponent (skipDigits cs) else .error .malformed
  | cs => skipExponent cs

/-- Skip a number, behind its sign. A leading zero stands by itself. -/
def skipNumber : List Char → Except Flaw (List Char)
  | '0' :: cs => if startsWithDigit cs then .error .malformed else skipFraction cs
  | c :: cs => if c.isDigit then skipFraction (skipDigits cs) else .error .malformed
  | [] => .error .malformed

/-- Read the quotation mark that opens a member's name. -/
def openName (cs : List Char) : Except Flaw (List Char) :=
  match skipBlank cs with
  | '"' :: rest => .ok rest
  | [] => .error .ended
  | _ => .error .malformed

/-- Read the colon behind a member's name. -/
def readColon (cs : List Char) : Except Flaw (List Char) :=
  match skipBlank cs with
  | ':' :: rest => .ok rest
  | [] => .error .ended
  | _ => .error .malformed

mutual

/-- Skip a value, nested at most as deep as the bound says. -/
def skipValueUpTo : Nat → List Char → Except Flaw (List Char)
  | 0, _ => .error .ended
  | bound + 1, cs =>
    match skipBlank cs with
    | [] => .error .ended
    | 'n' :: rest => readLetters "ull".toList rest
    | 't' :: rest => readLetters "rue".toList rest
    | 'f' :: rest => readLetters "alse".toList rest
    | '"' :: rest => skipString rest
    | '-' :: rest => skipNumber rest
    | '[' :: rest =>
      match skipBlank rest with
      | ']' :: rest => .ok rest
      | [] => .error .ended
      | rest => skipElements bound rest
    | '\x7b' :: rest =>
      match skipBlank rest with
      | '\x7d' :: rest => .ok rest
      | rest => skipMembers bound rest
    | rest => skipNumber rest

/-- Skip the elements of an array up to its closing bracket. -/
def skipElements : Nat → List Char → Except Flaw (List Char)
  | 0, _ => .error .ended
  | bound + 1, cs =>
    match skipValueUpTo bound cs with
    | .error flaw => .error flaw
    | .ok rest =>
      match skipBlank rest with
      | ',' :: rest => skipElements bound rest
      | ']' :: rest => .ok rest
      | [] => .error .ended
      | _ => .error .malformed

/-- Skip the members of an object up to its closing brace. -/
def skipMembers : Nat → List Char → Except Flaw (List Char)
  | 0, _ => .error .ended
  | bound + 1, cs =>
    match openName cs with
    | .error flaw => .error flaw
    | .ok rest =>
      match skipString rest with
      | .error flaw => .error flaw
      | .ok rest =>
        match readColon rest with
        | .error flaw => .error flaw
        | .ok rest =>
          match skipValueUpTo bound rest with
          | .error flaw => .error flaw
          | .ok rest =>
            match skipBlank rest with
            | ',' :: rest => skipMembers bound rest
            | '\x7d' :: rest => .ok rest
            | [] => .error .ended
            | _ => .error .malformed

end

/-- Skip a value. Every two steps of nesting take a character, which bounds their number. -/
def skipValue (cs : List Char) : Except Flaw (List Char) := skipValueUpTo (2 * cs.length + 2) cs

end SlotChain.Json

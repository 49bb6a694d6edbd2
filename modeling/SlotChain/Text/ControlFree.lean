/-!
# Text without control sequences

A message that quotes a foreign text must not let it steer the terminal. Control sequences are left out
of it as a terminal would take them in, and so are single control characters, except for those that
only set white space. White space is shown even where it stands inside of a sequence; what becomes of
the sequence then depends on whether the text is at hand as a whole or is written piece by piece.
-/

namespace SlotChain.Text

/-- Where in a control sequence a text stands. -/
inductive ControlState where
  /-- Outside of any sequence. -/
  | ground
  /-- Behind an escape character. -/
  | escape
  /-- Behind an escape character and intermediate characters. -/
  | intermediate
  /-- Inside a sequence with parameters. -/
  | parameters
  /-- At the start of a device command. -/
  | deviceEntry
  /-- Inside the parameters of a device command. -/
  | deviceParameters
  /-- Behind intermediate characters of a device command. -/
  | deviceIntermediate
  /-- Inside a string that a bell ends. -/
  | belled
  /-- Inside a string that the terminator ends. -/
  | string
deriving Repr, DecidableEq

/-- Whether a control character sets white space: a tab, a line feed, a form feed or a carriage
return. -/
def isSpacing (n : Nat) : Bool := n == 0x9 || n == 0xa || n == 0xc || n == 0xd

/-- Whether a character can be shown outside of a sequence: white space, and all characters but the
control characters of the basic alphabet. -/
def isShowable (n : Nat) : Bool := isSpacing n || (0x20 ≤ n && n != 0x7f)

/-- Whether a character has the string terminator among its bytes, which only one beyond the basic
alphabet can have. -/
def holdsTerminator (c : Char) : Bool := (String.utf8EncodeChar c).contains 0x9c

/-- The state behind a character that follows an escape character directly. -/
def ControlState.afterEscape (n : Nat) : ControlState :=
  if n < 0x20 ∨ 0x7f ≤ n then .escape
  else if n < 0x30 then .intermediate
  else if n = 0x5b then .parameters
  else if n = 0x5d then .belled
  else if n = 0x50 then .deviceEntry
  else if n = 0x58 ∨ n = 0x5e ∨ n = 0x5f then .string
  else .ground

/-- The state behind a character of a device command that is not over: control characters and those
beyond the basic alphabet count for nothing, and what can be no parameter starts the string of the
command. -/
def ControlState.afterDevice (state : ControlState) (n : Nat) : ControlState :=
  if n < 0x20 ∨ 0x7f ≤ n then state
  else
    match state with
    | .deviceEntry =>
      if n < 0x30 then .deviceIntermediate
      else if n < 0x40 then .deviceParameters
      else .string
    | .deviceParameters =>
      if n < 0x30 then .deviceIntermediate
      else if n < 0x3c then .deviceParameters
      else .string
    | _ => if n < 0x30 then .deviceIntermediate else .string

/-- The state behind a character that is not shown. An escape character starts a sequence anywhere, and
two control characters cancel any. -/
def ControlState.next (state : ControlState) (c : Char) : ControlState :=
  let n := c.toNat
  if n = 0x1b then .escape
  else if n = 0x18 ∨ n = 0x1a then .ground
  else
    match state with
    | .ground => .ground
    | .escape => .afterEscape n
    | .intermediate => if n < 0x30 ∨ 0x7f ≤ n then .intermediate else .ground
    | .parameters => if 0x40 ≤ n ∧ n < 0x7f then .ground else .parameters
    | .belled => if n = 0x7 then .ground else .belled
    | .string => if holdsTerminator c then .ground else .string
    | _ => state.afterDevice n

/-- Whether a character is shown: outside of a sequence whatever can be, inside of one the characters
that set white space, unless it is a device command or a string. -/
def ControlState.shows (state : ControlState) (n : Nat) : Bool :=
  match state with
  | .ground => isShowable n
  | .escape => isSpacing n
  | .intermediate => isSpacing n
  | .parameters => isSpacing n
  | _ => false

/-- What becomes of a control sequence in which white space stands. -/
inductive SpacingRule where
  /-- The white space ends it, as in a text that is at hand as a whole. -/
  | ends
  /-- The white space interrupts it, as in a text that is written piece by piece: what can be shown is
  shown, and the next other character goes on with the sequence. -/
  | interrupts
deriving Repr, DecidableEq

/-- A place in a text. -/
structure ControlPlace where
  /-- Where in a control sequence it is. -/
  state : ControlState := .ground
  /-- Whether white space has interrupted the sequence. -/
  interrupted : Bool := false
deriving Repr, DecidableEq

/-- Whether a character is shown at a place, and the place behind it. A character beyond the basic
alphabet ends an interrupted sequence for good. -/
def ControlPlace.step (rule : SpacingRule) (p : ControlPlace) (c : Char) : Bool × ControlPlace :=
  if p.interrupted && isShowable c.toNat then (true, if c.toNat < 0x80 then p else {})
  else if p.state.shows c.toNat then
    (true, match rule with
      | .ends => {}
      | .interrupts => ⟨p.state, true⟩)
  else (false, ⟨p.state.next c, false⟩)

/-- Leave out control sequences, from a place on. -/
def dropControlsFrom (rule : SpacingRule) : ControlPlace → List Char → List Char
  | _, [] => []
  | p, c :: cs =>
    let (shown, p) := p.step rule c
    if shown then c :: dropControlsFrom rule p cs else dropControlsFrom rule p cs

/-- A text without control sequences. -/
def dropControls (rule : SpacingRule) (s : String) : String :=
  String.ofList (dropControlsFrom rule {} s.toList)

end SlotChain.Text

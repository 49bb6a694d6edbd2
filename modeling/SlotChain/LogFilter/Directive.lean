import SlotChain.Pattern.Basic
import SlotChain.Text.Numeral
import SlotChain.Text.Slice

/-!
# Log directives

A directive names the events that it is about and the level down to which these are logged. It is a
level alone, or a target with a level behind an equals sign. Between the two, in brackets, there may be
the name of a span of time that an event has to lie in, and, in braces, a field that it has to carry. The
value of a field is a number or a pattern.

White space around a directive is passed over while its parts are being found. The parts are then cut
out of the text with the white space, at the same numbers of bytes; so white space in front shifts them,
and a shift into the middle of a character tears it.
-/

namespace SlotChain

/-- A field that an event has to carry. -/
structure FieldPattern where
  /-- The name of the field. -/
  name : String
  /-- The value that the field has to have. -/
  value : Option String
deriving Repr, DecidableEq

/-- One rule of a log filter. -/
structure LogDirective where
  /-- The text with which the name of a part of the program has to start. -/
  target : Option String := none
  /-- The span of time in which an event has to lie. -/
  span : Option String := none
  /-- The field that an event has to carry. -/
  field : Option FieldPattern := none
  /-- The greatest rank that is logged: zero for none, five for everything. -/
  rank : Nat
deriving Repr, DecidableEq

/-- Why a directive cannot be read. -/
inductive DirectiveFlaw where
  /-- It has not the form of a directive. -/
  | noDirective
  /-- What stands behind the equals sign is no level. -/
  | noLevel
  /-- The value of a field is a pattern that cannot be used. -/
  | badValue (flaw : Pattern.Flaw)
  /-- A part of it cannot be cut out. -/
  | torn (tear : Text.Tear)
deriving Repr, DecidableEq

/-- The text under which a flawed directive is reported. -/
def DirectiveFlaw.message : DirectiveFlaw → String
  | noDirective => "invalid filter directive"
  | noLevel => "error parsing level filter: expected one of \"off\", \"error\", \"warn\", " ++
      "\"info\", \"debug\", \"trace\", or a number 0-5"
  | badValue flaw => "invalid field filter: " ++ flaw.message
  | torn tear => tear.message

namespace LogDirective

/-- The letters of a text in lower case, as far as the basic alphabet goes. -/
def lower (s : String) : String := String.ofList (s.toList.map Char.toLower)

/-- The rank of a level given by its name or number. -/
def rankOf? (s : String) : Option Nat :=
  match Text.readWord s.toList with
  | .ok n => if n ≤ 5 then some n else none
  | .error _ =>
    match lower s with
    | "off" => some 0
    | "error" => some 1
    | "warn" => some 2
    | "info" => some 3
    | "debug" => some 4
    | "trace" => some 5
    | _ => none

/-- Whether a level or a target may start with a character: a letter or digit of any alphabet, or one
of the marks that names are made with. -/
def startsName (c : Char) : Bool :=
  c == '-' || c == ':' || c == '_' || Text.isAlphanumeric c

/-- Where the reader of a directive stands. A number is that of the bytes in front of the part which is
being read. -/
inductive Place where
  /-- Nothing has been read. -/
  | start
  /-- In a level or a target. -/
  | name
  /-- In the name of a span. -/
  | span (start : Nat)
  /-- In a field. -/
  | field (start : Nat)
  /-- Behind a field. -/
  | afterField
  /-- Behind the brackets. -/
  | closed
  /-- In a level behind an equals sign. -/
  | level (start : Nat)
deriving Repr, DecidableEq

/-- A directive of which some characters have been read. -/
structure Draft where
  /-- The place behind these characters. -/
  place : Place := .start
  /-- The target, once it has been read. -/
  target : Option String := none
  /-- The span, once it has been read. -/
  span : Option String := none
  /-- The field, once it has been read. -/
  field : Option FieldPattern := none

/-- Cut a part out of the text of a directive. -/
def cut (start stop : Nat) (text : List Char) : Except DirectiveFlaw String :=
  (Text.partBetween start stop text).mapError .torn

/-- Read the value of a field. A number is taken as such even where it would be no pattern. -/
def readValue (s : String) : Except DirectiveFlaw String :=
  if Text.isNumeral s.toList then .ok s
  else
    match Pattern.check s.toList with
    | .ok () => .ok s
    | .error flaw => .error (.badValue flaw)

/-- Read a field: its name, and behind an equals sign its value, which another equals sign ends. -/
def readField (s : String) : Except DirectiveFlaw FieldPattern :=
  match s.splitOn "=" with
  | [""] => .error .noDirective
  | name :: value :: _ => do return ⟨name, some (← readValue value)⟩
  | _ => .ok ⟨s, none⟩

namespace Draft

/-- Go on with a character that is found behind a number of bytes. -/
def step (text : List Char) (d : Draft) (i : Nat) (c : Char) : Except DirectiveFlaw Draft :=
  match d.place with
  | .start =>
    if c = '[' then .ok { d with place := .span (i + 1) }
    else if startsName c then .ok { d with place := .name }
    else .error .noDirective
  | .name =>
    if c = '=' then do return { d with target := some (← cut 0 i text), place := .level (i + 1) }
    else if c = '[' then do return { d with target := some (← cut 0 i text), place := .span (i + 1) }
    else .ok d
  | .span start =>
    if c = ']' then do return { d with span := some (← cut start i text), place := .closed }
    else if c = '\x7b' then do
      let name ← cut start i text
      return { d with span := if name = "" then none else some name, place := .field (i + 1) }
    else .ok d
  | .field start =>
    if c = '\x7d' then do
      let field ← readField (← cut start i text)
      return { d with field := some field, place := .afterField }
    else .ok d
  | .afterField => if c = ']' then .ok { d with place := .closed } else .error .noDirective
  | .closed => if c = '=' then .ok { d with place := .level (i + 1) } else .error .noDirective
  | .level _ => .ok d

/-- Go on with characters that are found from a number of bytes on. -/
def readFrom (text : List Char) : Nat → Draft → List Char → Except DirectiveFlaw Draft
  | _, d, [] => .ok d
  | i, d, c :: cs => do readFrom text (i + c.utf8Size) (← d.step text i c) cs

/-- The directive, once everything has been read. Without a level everything is logged. -/
def finish (text : List Char) (d : Draft) : Except DirectiveFlaw LogDirective :=
  match d.place with
  | .name =>
    let s := String.ofList text
    match rankOf? s with
    | some rank => .ok { rank := rank }
    | none => .ok { target := some s, rank := 5 }
  | .closed => .ok ⟨d.target, d.span, d.field, 5⟩
  | .level start => do
    let level ← (Text.partFrom start text).mapError .torn
    if level = "" then return ⟨d.target, d.span, d.field, 5⟩
    match rankOf? level with
    | some rank => return ⟨d.target, d.span, d.field, rank⟩
    | none => .error .noLevel
  | _ => .error .noDirective

end Draft

/-- Read a directive. -/
def read (s : String) : Except DirectiveFlaw LogDirective := do
  let text := s.toList
  (← Draft.readFrom text 0 {} (Text.trim text)).finish text

/-- The size of the target, by which directives are compared first: zero without one. -/
def targetSize (d : LogDirective) : Nat :=
  match d.target with
  | none => 0
  | some target => target.utf8ByteSize + 1

/-- Whether a directive yields to one that is given later and about the same event: it does unless it is
the more specific one. The longer target is more specific, then a field is more than none, and of two
fields the one with the greater name. -/
def yieldsTo (d e : LogDirective) : Bool :=
  if d.targetSize ≠ e.targetSize then decide (d.targetSize < e.targetSize)
  else
    match d.field, e.field with
    | none, _ => true
    | some _, none => false
    | some p, some q => decide (¬ q.name < p.name)

end LogDirective

end SlotChain

import SlotChain.Json.Number
import SlotChain.Json.Skip
import SlotChain.Text.Shape
import SlotChain.Text.Shortest

/-!
# List configuration

The construction options of a list, with their JSON form. The usual form is an object with one member,
which may be left out and may stand among any others; an array with at most one element is accepted as
well. The first thing met from left to right that cannot be accepted decides about the error.
-/

namespace SlotChain

/-- Construction options of a list. -/
structure ListConfig where
  /-- The number of cells that the arena holds before it needs to grow. -/
  capacity : UInt64 := 0
deriving Repr, DecidableEq

/-- The value found where another was expected. -/
inductive Found where
  | null
  | boolean (b : Bool)
  | string (s : String)
  | sequence
  | map
  | integer (n : Int)
  | float (x : Float)

/-- The value expected. -/
inductive Expected where
  /-- The capacity, a machine word. -/
  | capacity
  /-- A whole configuration. -/
  | config
deriving Repr, DecidableEq

/-- Why a text is no configuration. -/
inductive ConfigError where
  /-- The text is no JSON. -/
  | flaw (f : Json.Flaw)
  /-- The capacity is given twice. -/
  | duplicateCapacity
  /-- A value is of another type than expected. -/
  | wrongType (found : Found) (expected : Expected)
  /-- The capacity is a negative number. -/
  | negativeCapacity (n : Int)

/-- What was found, in words. -/
def Found.words : Found → String
  | null => "null"
  | boolean b => "boolean `" ++ (if b then "true" else "false") ++ "`"
  | string s => "string " ++ Text.quoted s
  | sequence => "sequence"
  | map => "map"
  | integer n => "integer `" ++ Text.integer n ++ "`"
  | float x => "floating point `" ++ Text.floatText x ++ "`"

/-- What was expected, in words. -/
def Expected.words : Expected → String
  | capacity => "usize"
  | config => "struct ListConfig"

/-- The text of an error about the content of a well-formed text; a flawed text has none. -/
def ConfigError.message? : ConfigError → Option String
  | flaw _ => none
  | duplicateCapacity => some "duplicate field `capacity`"
  | wrongType found expected =>
    some ("invalid type: " ++ found.words ++ ", expected " ++ expected.words)
  | negativeCapacity n =>
    some ("invalid value: integer `" ++ Text.integer n ++ "`, expected " ++ Expected.capacity.words)

namespace ListConfig

/-- Whether a configuration has all its options at their defaults. -/
def isDefault (c : ListConfig) : Bool := c.capacity == 0

/-- The shape of a configuration for inspection. -/
def shape (c : ListConfig) : Text.Shape :=
  .record "ListConfig" [.field "capacity" (.number c.capacity.toNat)]

/-- The JSON text of a configuration. -/
def toJson (c : ListConfig) : String :=
  "\x7b\"capacity\":" ++ Text.natural c.capacity.toNat ++ "\x7d"

/-- The JSON text of a configuration, spread over lines. -/
def toPrettyJson (c : ListConfig) : String :=
  "\x7b\n  \"capacity\": " ++ Text.natural c.capacity.toNat ++ "\n\x7d"

/-- The JSON text of several configurations. -/
def listToJson (cs : List ListConfig) : String :=
  "[" ++ ",".intercalate (cs.map toJson) ++ "]"

/-- Stop with a flaw of the text. -/
def flawed {β : Type} (f : Json.Flaw) : Except ConfigError β := .error (.flaw f)

/-- Go on with what a JSON reader gave. -/
def fromJson {β : Type} (r : Except Json.Flaw β) : Except ConfigError β := r.mapError .flaw

/-- The number at the front of a text. -/
def frontNumber : List Char → Except Json.Flaw (Json.Number × List Char)
  | '-' :: rest => Json.readNumber true rest
  | cs => Json.readNumber false cs

/-- The value of a number, as one that was not expected. -/
def Found.ofNumber : Json.Number → Found
  | .unsigned n => .integer n
  | .negative n => .integer n
  | .float x => .float x

/-- The unexpected value at the front of a text. Words, strings and numbers are read for it, while
arrays and objects are known by their brackets. -/
def unexpected : List Char → Except Json.Flaw Found
  | 'n' :: rest => (Json.readLetters "ull".toList rest).map fun _ => .null
  | 't' :: rest => (Json.readLetters "rue".toList rest).map fun _ => .boolean true
  | 'f' :: rest => (Json.readLetters "alse".toList rest).map fun _ => .boolean false
  | '"' :: rest => (Json.readString rest).map fun (text, _) => .string (String.ofList text)
  | '[' :: _ => .ok .sequence
  | '\x7b' :: _ => .ok .map
  | [] => .error .malformed
  | c :: rest =>
    if c = '-' ∨ c.isDigit then (frontNumber (c :: rest)).map fun (n, _) => Found.ofNumber n
    else .error .malformed

/-- Stop because of the unexpected value at the front of a text. -/
def refuse {β : Type} (expected : Expected) (cs : List Char) : Except ConfigError β :=
  match unexpected cs with
  | .ok found => .error (.wrongType found expected)
  | .error f => flawed f

/-- Read the value of the capacity. -/
def readCapacity (cs : List Char) : Except ConfigError (Nat × List Char) :=
  match Json.skipBlank cs with
  | [] => flawed .ended
  | c :: rest =>
    if c = '-' ∨ c.isDigit then
      match frontNumber (c :: rest) with
      | .error f => flawed f
      | .ok (.unsigned n, rest) => .ok (n, rest)
      | .ok (.negative n, _) => .error (.negativeCapacity n)
      | .ok (.float x, _) => .error (.wrongType (.float x) .capacity)
    else refuse .capacity (c :: rest)

/-- The name of the only member that matters. -/
def capacityName : List Char := "capacity".toList

/-- Read the members of an object, behind the quotation mark of the first name, up to the closing
brace. The members read so far have or have not given the capacity. -/
def readMembers : (bound : Nat) → (capacity : Option Nat) → List Char →
    Except ConfigError (Option Nat × List Char)
  | 0, _, _ => flawed .ended
  | bound + 1, capacity, cs => do
    let (name, cs) ← fromJson (Json.readString cs)
    let (capacity, cs) ←
      if name = capacityName then
        match capacity with
        | some _ => .error .duplicateCapacity
        | none => do
          let (n, cs) ← readCapacity (← fromJson (Json.readColon cs))
          pure (some n, cs)
      else do
        let cs ← fromJson (Json.readColon cs)
        let cs ← fromJson (Json.skipValue cs)
        pure (capacity, cs)
    match Json.skipBlank cs with
    | '\x7d' :: rest => .ok (capacity, rest)
    | ',' :: rest => readMembers bound capacity (← fromJson (Json.openName rest))
    | [] => flawed .ended
    | _ => flawed .malformed

/-- Read an object, behind its opening brace. -/
def readObject (cs : List Char) : Except ConfigError (Option Nat × List Char) :=
  match Json.skipBlank cs with
  | '\x7d' :: rest => .ok (none, rest)
  | rest => do readMembers rest.length none (← fromJson (Json.openName rest))

/-- Read an array, behind its opening bracket. -/
def readArray (cs : List Char) : Except ConfigError (Option Nat × List Char) :=
  match Json.skipBlank cs with
  | ']' :: rest => .ok (none, rest)
  | [] => flawed .ended
  | rest => do
    let (n, rest) ← readCapacity rest
    match Json.skipBlank rest with
    | ']' :: rest => .ok (some n, rest)
    | [] => flawed .ended
    | _ => flawed .malformed

/-- Read a configuration and leave what follows it. -/
def read (cs : List Char) : Except ConfigError (Option Nat × List Char) :=
  match Json.skipBlank cs with
  | [] => flawed .ended
  | '[' :: rest => readArray rest
  | '\x7b' :: rest => readObject rest
  | rest => refuse .config rest

/-- The configuration that a JSON text denotes. Only white space may surround it, and a capacity that
is left out is the default. -/
def ofJson (text : String) : Except ConfigError ListConfig := do
  let (capacity, rest) ← read text.toList
  match Json.skipBlank rest with
  | [] => return ⟨UInt64.ofNat (capacity.getD 0)⟩
  | _ => flawed .malformed

end ListConfig

end SlotChain

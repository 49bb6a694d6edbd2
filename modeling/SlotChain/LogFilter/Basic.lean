import SlotChain.Event
import SlotChain.Fault
import SlotChain.LogFilter.Directive

/-!
# Log filters

A filter says down to which level events are logged, by directives that are each about some of them. Of
several directives about an event the most specific one decides, and of equally specific ones the last.
Without any directive warnings are logged.
-/

namespace SlotChain

/-- A log filter. -/
structure LogFilter where
  /-- The rules in the order in which they are given. -/
  directives : List LogDirective
  /-- What is told about directives that cannot be read. -/
  complaints : List String := []
deriving Repr, DecidableEq

/-- The names of all values that an event carries, its message included. -/
def Event.fieldNames (e : Event) : List String := "message" :: e.fields.map Prod.fst

/-- Whether an event carries a field. None of its values can be compared with one that is asked for. -/
def Event.carries (e : Event) (p : FieldPattern) : Bool :=
  p.value.isNone && e.fieldNames.any fun name => decide (name = p.name)

/-- Whether a directive is about an event. The program has no spans of time, so a directive that asks
for one is about nothing. -/
def LogDirective.concerns (d : LogDirective) (e : Event) : Bool :=
  d.span.isNone && d.target.all (·.toList.isPrefixOf e.target.toList) && d.field.all e.carries

namespace LogFilter

/-- Add a directive to a filter, or a complaint if it cannot be read. -/
def add (f : LogFilter) (s : String) : Except Fault LogFilter :=
  match LogDirective.read s with
  | .ok d => .ok { f with directives := f.directives ++ [d] }
  | .error (.torn tear) => .error (.tornText tear)
  | .error flaw =>
    .ok { f with complaints := f.complaints ++ ["ignoring `" ++ s ++ "`: " ++ flaw.message] }

/-- The directive that holds without any other. -/
def defaultDirective : LogDirective := { rank := 2 }

/-- Read a filter from directives between commas. -/
def parse (s : String) : Except Fault LogFilter := do
  let f ← ((s.splitOn ",").filter (· ≠ "")).foldlM add ⟨[], []⟩
  return if f.directives.isEmpty then { f with directives := [defaultDirective] } else f

/-- The directive that decides about an event. -/
def deciding? (f : LogFilter) (e : Event) : Option LogDirective :=
  (f.directives.filter (·.concerns e)).foldl
    (fun best d => some (match best with
      | none => d
      | some b => if b.yieldsTo d then d else b)) none

/-- Whether an event is logged. -/
def logs (f : LogFilter) (e : Event) : Bool :=
  match f.deciding? e with
  | some d => decide (e.level.rank ≤ d.rank)
  | none => false

end LogFilter

/-- The log line of an event: its level, its target, its message and its fields. -/
def Event.logLine (e : Event) : String :=
  " ".intercalate ((e.level.name ++ " " ++ e.target ++ ":") :: e.message ::
    e.fields.map fun (name, value) => name ++ "=" ++ value)

end SlotChain

import SlotChain.ListStep
import SlotChain.Table

/-!
# Sessions over named lists

A session works on lists by name. A name not used before stands for an empty list. Some steps join two
lists: one is copied, compared with another, or emptied into another.
-/

namespace SlotChain

/-- The lists of a session. -/
structure Session (α : Type) (A : Type → Type := Arena) where
  /-- The chain under each name used so far. -/
  lists : Table String (Chain α A)

/-- A step of a session. -/
inductive SessionStep (α : Type) where
  /-- A step on the list of one name. -/
  | on (name : String) (step : ListStep α)
  /-- Put a copy of one list under another name. -/
  | copy (source target : String)
  /-- Compare two lists. -/
  | equal (left right : String)
  /-- Empty the source into the target; a list that is its own source is emptied first. -/
  | absorb (target source : String)
deriving Repr

namespace Session

variable {α : Type} {A : Type → Type} [SlotMap A]

/-- A session without named lists. -/
def start : Session α A := ⟨Table.empty⟩

/-- The list under a name. -/
def list (s : Session α A) (name : String) : Chain α A := (s.lists.find? name).getD Chain.empty

/-- Put a list under a name. -/
def put (s : Session α A) (name : String) (c : Chain α A) : Session α A := ⟨s.lists.put name c⟩

/-- Carry out one step. A fault leaves the session as it was. -/
def perform [Item α] : SessionStep α → Act (Session α A) (Answer α)
  | .on name step => fun s =>
    (step.perform (s.list name)).map fun o => { o with state := s.put name o.state }
  | .copy source target => fun s =>
    (s.list source).copy.map fun o => ⟨.done, s.put target o.state, o.events⟩
  | .equal left right =>
    .inspect fun s => ((s.list left).equals (s.list right)).map .flag
  | .absorb target source => fun s =>
    let taken := s.list source
    let s := s.put source Chain.empty
    (Chain.absorb taken (s.list target)).map fun o => ⟨.done, s.put target o.state, o.events⟩

end Session

end SlotChain

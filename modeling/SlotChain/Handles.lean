import SlotChain.ListStep
import SlotChain.Table

/-!
# Handles to shared lists

Several handles may denote one list. Whatever is done through one of them is seen through all; each list
counts its handles and goes away with the last. All work on a list through a handle is one exclusive
section, whether it is a single step or several: nothing else happens in between, and a fault in the
middle ends the section but keeps the steps before.
-/

namespace SlotChain

/-- A list together with the number of handles that denote it. -/
structure SharedList (α : Type) (A : Type → Type := Arena) where
  /-- The list. -/
  list : Chain α A
  /-- The number of handles. -/
  handles : Nat

/-- Handles by name and the lists that they denote. -/
structure Handles (α : Type) (A : Type → Type := Arena) where
  /-- The number of the list that each handle denotes. -/
  names : Table String Nat
  /-- The lists by number. -/
  lists : Table Nat (SharedList α A)
  /-- The number of the next list. -/
  nextList : Nat

/-- Something done with a handle. -/
inductive HandleStep (α : Type) where
  /-- Let the handle denote a new empty list with room reserved. -/
  | create (handle : String) (capacity : Nat)
  /-- Let the handle denote a new list of these items. -/
  | collect (handle : String) (items : List α)
  /-- Let another handle denote the same list. -/
  | share (handle target : String)
  /-- Give the handle up. -/
  | drop (handle : String)
  /-- Carry out one step on the list. -/
  | on (handle : String) (step : ListStep α)
  /-- Carry out several steps on the list as one section. -/
  | section (handle : String) (steps : List (ListStep α))
  /-- Take the list out, if no other handle denotes it. -/
  | reclaim (handle : String)
deriving Repr

/-- What a step with a handle answers. -/
inductive HandleAnswer (α : Type) (A : Type → Type := Arena) where
  | done
  /-- There is no handle of this name. -/
  | noHandle
  /-- The answer of one step on the list. -/
  | one (a : Answer α)
  /-- The answers of a section. -/
  | many (as : List (Answer α))
  /-- Another handle denotes the list as well, and nothing has changed. -/
  | stillShared
  /-- The list, taken out. -/
  | reclaimed (list : Chain α A)

/-- Carry out steps on a chain up to the first that stops with a fault. The chain is the one that the
steps before it left. -/
def ListStep.performAll {α : Type} {A : Type → Type} [SlotMap A] [Item α] :
    List (ListStep α) → Chain α A → Chain α A × Except Fault (List (Answer α))
  | [], c => (c, .ok [])
  | step :: rest, c =>
    match step.perform c with
    | .error fault => (c, .error fault)
    | .ok o =>
      let (c, result) := performAll rest o.state
      (c, result.map (o.answer :: ·))

namespace Handles

variable {α : Type} {A : Type → Type} [SlotMap A]

/-- No handles at all. -/
def empty : Handles α A := ⟨Table.empty, Table.empty, 0⟩

/-- The list that a handle denotes. -/
def list? (h : Handles α A) (handle : String) : Option (Chain α A) := do
  let number ← h.names.find? handle
  let shared ← h.lists.find? number
  return shared.list

/-- Count one handle more for a list. -/
def retain (h : Handles α A) (number : Nat) : Handles α A :=
  match h.lists.find? number with
  | none => h
  | some shared =>
    { h with lists := h.lists.put number { shared with handles := shared.handles + 1 } }

/-- Count one handle less for a list, which goes away with the last. -/
def release (h : Handles α A) (number : Nat) : Handles α A :=
  match h.lists.find? number with
  | none => h
  | some shared =>
    if shared.handles ≤ 1 then { h with lists := h.lists.erase number }
    else { h with lists := h.lists.put number { shared with handles := shared.handles - 1 } }

/-- Let a handle denote a list that has counted it already, in place of the one it denoted. -/
def bindHandle (h : Handles α A) (handle : String) (number : Nat) : Handles α A :=
  let bound := { h with names := h.names.put handle number }
  match h.names.find? handle with
  | none => bound
  | some old => bound.release old

/-- Let a handle denote a list that no handle has denoted before. -/
def adopt (h : Handles α A) (handle : String) (c : Chain α A) : Handles α A :=
  let number := h.nextList
  { h with lists := h.lists.put number ⟨c, 1⟩, nextList := number + 1 }.bindHandle handle number

/-- One handle `a` to a new empty list. -/
def start : Handles α A := empty.adopt "a" Chain.empty

/-- Put another chain in the place of a list. -/
def replace (h : Handles α A) (number : Nat) (c : Chain α A) : Handles α A :=
  match h.lists.find? number with
  | none => h
  | some shared => { h with lists := h.lists.put number { shared with list := c } }

/-- Let a handle denote a new list, unless building it stops with a fault. -/
def build (h : Handles α A) (handle : String) (built : Except Fault (Chain α A)) :
    Handles α A × Except Fault (HandleAnswer α A) :=
  match built with
  | .error fault => (h, .error fault)
  | .ok c => (h.adopt handle c, .ok .done)

/-- Run steps on the list of a handle as one section. -/
def exclusive [Item α] (h : Handles α A) (handle : String) (steps : List (ListStep α)) :
    Handles α A × Option (Except Fault (List (Answer α))) :=
  match h.names.find? handle with
  | none => (h, none)
  | some number =>
    match h.lists.find? number with
    | none => (h, none)
    | some shared =>
      let (c, result) := ListStep.performAll steps shared.list
      (h.replace number c, some result)

/-- Take the list of a handle out, if no other handle denotes it. -/
def reclaim (h : Handles α A) (handle : String) : Handles α A × HandleAnswer α A :=
  match h.names.find? handle with
  | none => (h, .noHandle)
  | some number =>
    match h.lists.find? number with
    | none => (h, .noHandle)
    | some shared =>
      if shared.handles ≤ 1 then
        ({ h with names := h.names.erase handle, lists := h.lists.erase number },
          .reclaimed shared.list)
      else (h, .stillShared)

/-- Carry out one step. -/
def perform [Item α] (h : Handles α A) :
    HandleStep α → Handles α A × Except Fault (HandleAnswer α A)
  | .create handle capacity => h.build handle (Chain.withCapacity capacity)
  | .collect handle items => h.build handle ((Chain.ofList items).map Outcome.state)
  | .share handle target =>
    match h.names.find? handle with
    | none => (h, .ok .noHandle)
    | some number => ((h.retain number).bindHandle target number, .ok .done)
  | .drop handle =>
    match h.names.find? handle with
    | none => (h, .ok .noHandle)
    | some number => ({ h with names := h.names.erase handle }.release number, .ok .done)
  | .on handle step =>
    match h.exclusive handle [step] with
    | (h, none) => (h, .ok .noHandle)
    | (h, some result) => (h, result.map fun as => .one (as.headD .done))
  | .section handle steps =>
    match h.exclusive handle steps with
    | (h, none) => (h, .ok .noHandle)
    | (h, some result) => (h, result.map .many)
  | .reclaim handle =>
    let (h, answer) := h.reclaim handle
    (h, .ok answer)

end Handles

end SlotChain

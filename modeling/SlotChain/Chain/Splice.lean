import SlotChain.Chain.Basic

/-!
# Splicing cells in and out

The link surgery behind every mutation. A new cell is stored first and then linked between two given
neighbours; a cell is taken out wherever it stands, by releasing its slot and then mending the ends
and the links of its neighbours.
-/

namespace SlotChain.Chain

variable {α : Type} {A : Type → Type} [SlotMap A]

/-- Store a new cell without neighbours and name it. -/
def store (c : Chain α A) (item : α) : Except Fault (Token × Chain α A) :=
  match SlotMap.insert c.arena ⟨none, none, item⟩ with
  | none => .error .capacityOverflow
  | some (key, arena) => (Token.ofKey key).map fun t => (t, { c with arena })

/-- Change the links of the cell that a token names. -/
def relink (c : Chain α A) (t : Token) (f : Cell α → Cell α) : Except Fault (Chain α A) :=
  (c.cell t).map fun _ => { c with arena := SlotMap.modify c.arena t.key f }

/-- Change the links of a neighbour, if there is one. -/
def relinkNeighbour (c : Chain α A) (f : Cell α → Cell α) : Option Token → Except Fault (Chain α A)
  | none => .ok c
  | some t => c.relink t f

/-- Link a cell between two neighbours, on both sides of each link. -/
def linkBetween (c : Chain α A) (t : Token) (prev next : Option Token) : Except Fault (Chain α A) := do
  let c ← c.relinkNeighbour (fun cell => { cell with next := some t }) prev
  let c ← c.relinkNeighbour (fun cell => { cell with prev := some t }) next
  c.relink t fun cell => { cell with prev, next }

/-- Count one cell more. -/
def grow (c : Chain α A) : Except Fault (Chain α A) :=
  if c.len + 1 < wordLimit then .ok { c with len := c.len + 1 } else .error .lengthOverflow

/-- Count one cell less. -/
def shrink (c : Chain α A) : Except Fault (Chain α A) :=
  match c.len with
  | 0 => .error .lengthUnderflow
  | n + 1 => .ok { c with len := n }

/-- Take a cell out of the chain, wherever it stands, and return its item. The slot is released
first; then the ends move past the cell and its neighbours are linked to each other. -/
def unlink (c : Chain α A) (t : Token) : Except Fault (α × Chain α A) := do
  let cell ← c.cell t
  let c := { c with
    arena := SlotMap.erase c.arena t.key
    head := if c.head = some t then cell.next else c.head
    tail := if c.tail = some t then cell.prev else c.tail }
  let c ← c.relinkNeighbour (fun p => { p with next := cell.next }) cell.prev
  let c ← c.relinkNeighbour (fun n => { n with prev := cell.prev }) cell.next
  let c ← c.shrink
  return (cell.item, c)

end SlotChain.Chain

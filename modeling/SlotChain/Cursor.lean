import SlotChain.Chain.Basic
import SlotChain.TwoEnded

/-!
# Cursors

A cursor reads a chain from both ends without changing it: it follows `next` links from the front and
`prev` links from the back, and counts what it has not yielded yet. The count alone stops it, because
the two ends may have passed each other. Any number of cursors may read one chain side by side, each
with a position of its own.
-/

namespace SlotChain

/-- A position in a chain, seen from both ends. -/
structure Cursor where
  /-- The cell that is yielded next from the front. -/
  front : Option Token
  /-- The cell that is yielded next from the back. -/
  back : Option Token
  /-- The number of items not yet yielded. -/
  remaining : Nat
deriving DecidableEq

namespace Cursor

variable {α : Type} {A : Type → Type} [SlotMap A]

/-- A cursor over a whole chain. -/
def ofChain (c : Chain α A) : Cursor := ⟨c.head, c.tail, c.len⟩

/-- Yield the item at the front and move on to its `next` neighbour. -/
def next (c : Chain α A) : Act Cursor (Option α) := fun k =>
  match k.remaining, k.front with
  | n + 1, some t =>
    (c.cell t).map fun cell => ⟨some cell.item, { k with front := cell.next, remaining := n }, []⟩
  | _, _ => .ok ⟨none, k, []⟩

/-- Yield the item at the back and move on to its `prev` neighbour. -/
def nextBack (c : Chain α A) : Act Cursor (Option α) := fun k =>
  match k.remaining, k.back with
  | n + 1, some t =>
    (c.cell t).map fun cell => ⟨some cell.item, { k with back := cell.prev, remaining := n }, []⟩
  | _, _ => .ok ⟨none, k, []⟩

/-- The cursors over a chain as two-ended sources. -/
def source (c : Chain α A) : TwoEnded Cursor α := ⟨next c, nextBack c, Cursor.remaining⟩

end Cursor

namespace Chain

variable {α : Type} {A : Type → Type} [SlotMap A]

/-- The items from head to tail, read along the `next` links. -/
def items (c : Chain α A) : Except Fault (List α) :=
  ((Cursor.source c).takeAll (Cursor.next c) (Cursor.ofChain c)).map Outcome.answer

/-- The items from tail to head, read along the `prev` links. -/
def itemsReversed (c : Chain α A) : Except Fault (List α) :=
  ((Cursor.source c).takeAll (Cursor.nextBack c) (Cursor.ofChain c)).map Outcome.answer

end Chain

/-- A request to a growing population of cursors over one chain, numbered from zero. -/
inductive CursorRequest where
  /-- Put a call to the cursor of this number. -/
  | call (i : Nat) (q : Call)
  /-- Add a copy of the cursor of this number, as it stands now. -/
  | copy (i : Nat)
  /-- Add a new cursor over the whole chain. -/
  | fresh
deriving Repr, DecidableEq

namespace CursorRequest

variable {α : Type} {A : Type → Type} [SlotMap A]

/-- Serve one request. A number that names no cursor yields nothing. -/
def serve (c : Chain α A) : CursorRequest → Act (Array Cursor) (Reply α)
  | call i q => fun ks =>
    match ks[i]? with
    | none => .ok ⟨.item none, ks, []⟩
    | some k => ((Cursor.source c).call q k).map fun o =>
      { o with state := ks.setIfInBounds i o.state }
  | copy i => fun ks =>
    match ks[i]? with
    | none => .ok ⟨.item none, ks, []⟩
    | some k => .ok ⟨.number ks.size, ks.push k, []⟩
  | fresh => fun ks => .ok ⟨.number ks.size, ks.push (Cursor.ofChain c), []⟩

/-- Serve requests one after the other. -/
def serveAll (c : Chain α A) : List CursorRequest → Act (Array Cursor) (List (Reply α))
  | [] => return []
  | q :: qs => return (← q.serve c) :: (← serveAll c qs)

end CursorRequest

end SlotChain

import SlotChain.Chain.Bulk
import SlotChain.Chain.Drain
import SlotChain.Display

/-!
# Steps on one list

Everything that can be done to a single list and asked of it, as data, so that a course of steps can
be written down, run and reasoned about.
-/

namespace SlotChain

/-- A question that leaves the list as it is. -/
inductive Query where
  /-- The first item. -/
  | front
  /-- The last item. -/
  | back
  /-- The number of items. -/
  | len
  /-- Whether there are no items. -/
  | isEmpty
  /-- The display text. -/
  | display
  /-- Whether the display text is the marker of an absent link. -/
  | displaysNull
  /-- The inspection text on one line. -/
  | inspect
  /-- The inspection text over many lines. -/
  | inspectPretty
  /-- The items from head to tail. -/
  | items
  /-- The items from tail to head. -/
  | itemsReversed
  /-- The replies of a population of cursors, at first one over the whole list. -/
  | cursors (requests : List CursorRequest)
deriving Repr, DecidableEq

/-- Something that is done to a list of items of type `α`. -/
inductive ListStep (α : Type) where
  /-- Replace the list by an empty one with room reserved. -/
  | build (capacity : Nat)
  /-- Replace the list by one of these items. -/
  | collect (items : List α)
  | prepend (item : α)
  | append (item : α)
  | extend (items : List α)
  | clear
  | deleteHead
  | deleteTail
  /-- Give the list up for an empty one and drain what it held. -/
  | drain (calls : List Call)
  | ask (query : Query)
deriving Repr

/-- What a step answers. -/
inductive Answer (α : Type) where
  | done
  | item (x : Option α)
  | number (n : Nat)
  | flag (b : Bool)
  | text (s : String)
  | items (xs : List α)
  | replies (rs : List (Reply α))
deriving Repr

namespace Chain

variable {α : Type} {A : Type → Type} [SlotMap A] [Item α]

/-- Answer a question about a chain. -/
def answer (c : Chain α A) : Query → Except Fault (Answer α)
  | .front => return .item (← c.front)
  | .back => return .item (← c.back)
  | .len => return .number c.len
  | .isEmpty => return .flag c.isEmpty
  | .display => return .text (← c.display)
  | .displaysNull => return .flag ((← c.display) == Display.null)
  | .inspect => return .text (← c.shape).compact
  | .inspectPretty => return .text (← c.shape).pretty
  | .items => return .items (← c.items)
  | .itemsReversed => return .items (← c.itemsReversed)
  | .cursors requests =>
    (CursorRequest.serveAll c requests #[Cursor.ofChain c]).map fun o => .replies o.answer

end Chain

namespace ListStep

variable {α : Type} {A : Type → Type} [SlotMap A] [Item α]

/-- Carry out one step on a chain. -/
def perform : ListStep α → Act (Chain α A) (Answer α)
  | build capacity => fun _ =>
    (Chain.withCapacity capacity).map fun c => ⟨.done, c, []⟩
  | collect items => fun _ =>
    (Chain.ofList items).map fun o => { o with answer := .done }
  | prepend item => do
    Chain.prepend item
    return .done
  | append item => do
    Chain.append item
    return .done
  | extend items => do
    Chain.extend items
    return .done
  | clear => fun c => .ok ⟨.done, c.clear, []⟩
  | deleteHead => return .item (← Chain.deleteHead)
  | deleteTail => return .item (← Chain.deleteTail)
  | drain calls => fun c =>
    (Chain.drain.calls calls c).map fun o => ⟨.replies o.answer, Chain.empty, o.events⟩
  | ask query => .inspect fun c => c.answer query

end ListStep

end SlotChain

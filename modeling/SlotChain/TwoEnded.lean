import SlotChain.Act

/-!
# Sequences taken from two ends

A two-ended source yields items from its front and from its back until none remain. Everything else
that can be asked of it, such as skipping, counting or collecting, is defined over these two steps
alone, so that every kind of source answers such a call in the same way.
-/

namespace SlotChain

/-- How to take items from a state and how many remain in it. -/
structure TwoEnded (σ α : Type) where
  /-- Yield the first remaining item, or nothing. -/
  takeFront : Act σ (Option α)
  /-- Yield the last remaining item, or nothing. -/
  takeBack : Act σ (Option α)
  /-- The number of items not yet yielded. -/
  remaining : σ → Nat

/-- A question to a two-ended source. -/
inductive Call where
  /-- The next item from the front. -/
  | next
  /-- The next item from the back. -/
  | nextBack
  /-- The item that follows `k` others from the front. -/
  | nth (k : Nat)
  /-- The item that follows `k` others from the back. -/
  | nthBack (k : Nat)
  /-- Use up all items and count them. -/
  | count
  /-- Use up all items and answer the last one. -/
  | last
  /-- Use up all items from the front and list them. -/
  | rest
  /-- Use up all items from the back and list them. -/
  | restReversed
  /-- The number of items left. -/
  | len
  /-- Bounds on the number of items left. -/
  | sizeHint
deriving Repr, DecidableEq

/-- The answer to a call. -/
inductive Reply (α : Type) where
  | item (x : Option α)
  | number (n : Nat)
  | bounds (lower upper : Nat)
  | items (xs : List α)
deriving Repr, DecidableEq

namespace TwoEnded

variable {σ α : Type}

/-- Take and drop `k` items and then take one more. A source that runs out on the way yields nothing
and is empty afterwards. -/
def takeNth (take : Act σ (Option α)) : Nat → Act σ (Option α)
  | 0 => take
  | k + 1 => do
    match ← take with
    | none => return none
    | some _ => takeNth take k

/-- Take items until there are none, at most as many as the bound says. -/
def takeUpTo (take : Act σ (Option α)) : Nat → Act σ (List α)
  | 0 => return []
  | n + 1 => do
    match ← take with
    | none => return []
    | some x => return x :: (← takeUpTo take n)

/-- Take all remaining items by repeating one of the two steps. -/
def takeAll (e : TwoEnded σ α) (take : Act σ (Option α)) : Act σ (List α) := fun s =>
  takeUpTo take (e.remaining s) s

/-- Answer one call. -/
def call (e : TwoEnded σ α) : Call → Act σ (Reply α)
  | .next => return .item (← e.takeFront)
  | .nextBack => return .item (← e.takeBack)
  | .nth k => return .item (← takeNth e.takeFront k)
  | .nthBack k => return .item (← takeNth e.takeBack k)
  | .count => return .number (← e.takeAll e.takeFront).length
  | .last => return .item (← e.takeAll e.takeFront).getLast?
  | .rest => return .items (← e.takeAll e.takeFront)
  | .restReversed => return .items (← e.takeAll e.takeBack)
  | .len => .inspect fun s => .ok (.number (e.remaining s))
  | .sizeHint => .inspect fun s => .ok (.bounds (e.remaining s) (e.remaining s))

/-- Answer calls one after the other. -/
def calls (e : TwoEnded σ α) : List Call → Act σ (List (Reply α))
  | [] => return []
  | q :: qs => return (← e.call q) :: (← e.calls qs)

end TwoEnded

end SlotChain

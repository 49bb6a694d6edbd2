/-!
# Depth of patterns

Parts of a pattern stand inside each other. Every repetition, group and bracketed class is one deeper
than what it holds, and so is a row of several parts.
-/

namespace SlotChain.Pattern

/-- How deep the parts of a pattern may be nested. -/
def depthLimit : Nat := 250

/-- Parts that stand side by side. -/
structure Row where
  /-- The number of parts. -/
  count : Nat := 0
  /-- The greatest depth of a part. -/
  depth : Nat := 0
deriving Repr, DecidableEq

/-- Add a part. -/
def Row.add (r : Row) (depth : Nat) : Row := ⟨r.count + 1, max r.depth depth⟩

/-- The depth of the whole row: a single part is no deeper for standing in a row. -/
def Row.height (r : Row) : Nat := if r.count ≤ 1 then r.depth else r.depth + 1

end SlotChain.Pattern

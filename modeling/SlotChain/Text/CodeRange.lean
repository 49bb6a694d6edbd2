/-!
# Ranges of code points

A character class is a list of closed ranges of code points in ascending order.
-/

namespace SlotChain.Text

/-- Whether a code point lies in one of the ranges. The search ends at the first range beyond it, so
the ranges have to ascend. -/
def inRanges (n : Nat) : List (Nat × Nat) → Bool
  | [] => false
  | (lo, hi) :: rest => if n < lo then false else n ≤ hi || inRanges n rest

end SlotChain.Text

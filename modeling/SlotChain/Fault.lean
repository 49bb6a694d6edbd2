import SlotChain.Text.Slice
import SlotChain.Word

/-!
# Faults

An operation either completes or stops with a fault. A fault is not an answer to the caller's question,
as the missing item of an empty chain is: it says that the operation could not be carried out at all.
An operation on a chain that stops with a fault leaves the chain as it was before.
-/

namespace SlotChain

/-- A condition that stops an operation. -/
inductive Fault where
  /-- An arena was to hold or reserve more cells than it has room for. -/
  | capacityOverflow
  /-- The slot key is the largest word, so that no token can stand for it. -/
  | noToken (key : Nat)
  /-- A link or an end of the chain names a slot that holds no cell. -/
  | staleLink
  /-- The length would leave the machine word at its upper end. -/
  | lengthOverflow
  /-- The length would leave the machine word at its lower end. -/
  | lengthUnderflow
  /-- The audit that follows every mutation found the links inconsistent. -/
  | brokenChain
  /-- A text was cut through the middle of a character. -/
  | tornText (tear : Text.Tear)
deriving Repr, DecidableEq

/-- The text under which a fault is reported. -/
def Fault.message : Fault → String
  | .capacityOverflow => "capacity overflow"
  | .noToken key => "slab key " ++ Text.natural key ++ " has no token"
  | .staleLink => "invalid key"
  | .lengthOverflow => "attempt to add with overflow"
  | .lengthUnderflow => "attempt to subtract with overflow"
  | .brokenChain => "broken chain"
  | .tornText tear => tear.message

end SlotChain

/-!
# Machine words

Lengths, tokens, capacities and digits gathered from a number stay within machine words of 64 bits.
-/

namespace SlotChain

/-- One more than the largest machine word, two to the power of 64. -/
def wordLimit : Nat := 18446744073709551616

/-- One more than the largest signed machine word, two to the power of 63. -/
def signedWordLimit : Nat := 9223372036854775808

end SlotChain

import SlotChain.Chain.Basic

/-!
# The audit of a chain

The audit looks at every link of a chain: both ends are absent together and exactly when the length is
zero, the length counts the occupied slots, and the walks from the head along `next` and from the tail
along `prev` each meet every cell once and agree with the links the other way. It runs on any chain
whatsoever, however its links are tangled, because a walk gives up after as many cells as the chain
claims to have.
-/

namespace SlotChain.Chain

variable {α : Type} {A : Type → Type} [SlotMap A]

/-- Walk from a cell along the links `onward` and check at every cell that `backward` leads to where
the walk came from. The answer is the last cell met and the number of cells, or nothing if a link is
stale or inconsistent or more cells follow than the budget allows. -/
def trail (c : Chain α A) (onward backward : Cell α → Option Token) :
    (budget : Nat) → (before cursor : Option Token) → Option (Option Token × Nat)
  | _, before, none => some (before, 0)
  | 0, _, some _ => none
  | budget + 1, before, some t =>
    match SlotMap.get? c.arena t.key with
    | none => none
    | some cell =>
      if backward cell = before then
        (trail c onward backward budget (some t) (onward cell)).map fun (last, steps) =>
          (last, steps + 1)
      else none

/-- Whether a link of the cell at one end is absent, as it has to be there. -/
def openEnd (c : Chain α A) (outward : Cell α → Option Token) : Option Token → Bool
  | none => true
  | some t => ((SlotMap.get? c.arena t.key).map fun cell => (outward cell).isNone).getD false

/-- Whether all links, both ends and the length agree with each other. -/
def sound (c : Chain α A) : Bool :=
  c.head.isNone == c.tail.isNone
    && c.head.isNone == (c.len == 0)
    && c.len == SlotMap.size c.arena
    && c.openEnd Cell.prev c.head
    && c.openEnd Cell.next c.tail
    && (c.len != 1 || c.head == c.tail)
    && c.trail Cell.next Cell.prev c.len none c.head == some (c.tail, c.len)
    && c.trail Cell.prev Cell.next c.len none c.tail == some (c.head, c.len)

/-- Stop with a fault unless the chain passes the audit. -/
def audit (c : Chain α A) : Except Fault Unit :=
  if c.sound then .ok () else .error .brokenChain

end SlotChain.Chain

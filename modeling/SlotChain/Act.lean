import SlotChain.Event
import SlotChain.Fault

/-!
# Actions

An action works on a state: it stops with a fault, or it answers, leaves a new state and emits events.
Actions run one after the other hand the state on and emit their events in order.
-/

namespace SlotChain

/-- What a completed action leaves behind. -/
structure Outcome (σ β : Type) where
  /-- The answer to the caller. -/
  answer : β
  /-- The state afterwards. -/
  state : σ
  /-- The events emitted on the way, first to last. -/
  events : List Event

/-- A step on a state that may stop with a fault. -/
def Act (σ β : Type) : Type := σ → Except Fault (Outcome σ β)

namespace Act

variable {σ β γ : Type}

/-- Answer without touching the state. -/
def done (b : β) : Act σ β := fun s => .ok ⟨b, s, []⟩

/-- Run one action and then another that depends on its answer. -/
def andThen (x : Act σ β) (f : β → Act σ γ) : Act σ γ := fun s =>
  match x s with
  | .error fault => .error fault
  | .ok o =>
    match f o.answer o.state with
    | .error fault => .error fault
    | .ok p => .ok { p with events := o.events ++ p.events }

instance : Monad (Act σ) where
  pure := done
  bind := andThen

/-- The answer that a function reads off the state, which stays as it is. -/
def inspect (f : σ → Except Fault β) : Act σ β := fun s => (f s).map fun b => ⟨b, s, []⟩

/-- A completed first action hands its state on, and its events come first. -/
theorem bind_ok {x : Act σ β} {f : β → Act σ γ} {s : σ} {o : Outcome σ β} {p : Outcome σ γ}
    (hx : x s = .ok o) (hf : f o.answer o.state = .ok p) :
    (x >>= f) s = .ok { p with events := o.events ++ p.events } := by
  simp only [bind, andThen, hx, hf]

/-- A fault of the first action ends the whole. -/
theorem bind_error {x : Act σ β} {f : β → Act σ γ} {s : σ} {fault : Fault}
    (hx : x s = .error fault) : (x >>= f) s = .error fault := by
  simp only [bind, andThen, hx]

/-- A fault of the second action ends the whole as well. -/
theorem bind_error_right {x : Act σ β} {f : β → Act σ γ} {s : σ} {o : Outcome σ β} {fault : Fault}
    (hx : x s = .ok o) (hf : f o.answer o.state = .error fault) : (x >>= f) s = .error fault := by
  simp only [bind, andThen, hx, hf]

end Act

end SlotChain

import SlotChain.Session
import SlotChain.Proofs.Outcomes

/-!
# What a session leaves alone

A step of a session changes the lists of the names that it is about, and no others. So a list stays the
very chain that it is, down to its slots and links, as long as no step is about its name.
-/

namespace SlotChain

variable {α : Type} {A : Type → Type} [SlotMap A]

/-- The names whose lists a step may change. -/
def SessionStep.changed : SessionStep α → List String
  | .on name _ => [name]
  | .copy _ target => [target]
  | .equal _ _ => []
  | .absorb target source => [target, source]

namespace Session

/-- What is put under a name is the list of that name, and every other name keeps its list. -/
theorem list_put (s : Session α A) (name other : String) (c : Chain α A) :
    (s.put name c).list other = if other = name then c else s.list other := by
  rw [list, put, Table.find?_put]
  split
  · rfl
  · rfl

/-- The list that was put under a name. -/
theorem list_put_self (s : Session α A) (name : String) (c : Chain α A) :
    (s.put name c).list name = c := by
  rw [list_put, if_pos rfl]

/-- The list of another name. -/
theorem list_put_of_ne (s : Session α A) {name other : String} (h : other ≠ name) (c : Chain α A) :
    (s.put name c).list other = s.list other := by
  rw [list_put, if_neg h]

variable [Item α]

/-- Carry out steps one after the other. One that is stopped by a fault leaves the session as it was, and
the next step follows. -/
def follow : List (SessionStep α) → Session α A → Session α A
  | [], s => s
  | step :: rest, s =>
    match perform step s with
    | .error _ => follow rest s
    | .ok o => follow rest o.state

/-- A copy is put under its name. -/
theorem perform_copy {s : Session α A} {source target : String} {c : Chain α A} {es : List Event}
    (h : (s.list source).copy = .ok ⟨(), c, es⟩) :
    perform (.copy source target) s = .ok ⟨.done, s.put target c, es⟩ := by
  simp only [perform, h]
  rfl

/-- An absorbed list is taken away before the other is extended. -/
theorem perform_absorb {s : Session α A} {name other : String} {c : Chain α A} {es : List Event}
    (h : Chain.absorb (s.list other) ((s.put other Chain.empty).list name) = .ok ⟨(), c, es⟩) :
    perform (.absorb name other) s = .ok ⟨.done, (s.put other Chain.empty).put name c, es⟩ := by
  simp only [perform, h]
  rfl

/-- A step leaves the lists of all names alone that it is not about. -/
theorem list_of_perform {s : Session α A} {step : SessionStep α}
    {o : Outcome (Session α A) (Answer α)} (h : perform step s = .ok o) {name : String}
    (hname : name ∉ step.changed) : o.state.list name = s.list name := by
  cases step with
  | on target step =>
    obtain ⟨p, -, rfl⟩ := map_eq_ok.1 h
    exact list_put_of_ne s (List.ne_of_not_mem_cons hname) p.state
  | copy source target =>
    obtain ⟨p, -, rfl⟩ := map_eq_ok.1 h
    exact list_put_of_ne s (List.ne_of_not_mem_cons hname) p.state
  | equal left right =>
    obtain ⟨b, -, rfl⟩ := map_eq_ok.1 h
    rfl
  | absorb target source =>
    obtain ⟨p, -, rfl⟩ := map_eq_ok.1 h
    obtain ⟨htarget, hsource⟩ := List.ne_and_not_mem_of_not_mem_cons hname
    rw [list_put_of_ne _ htarget, list_put_of_ne s (List.ne_of_not_mem_cons hsource)]

/-- Any number of steps leave the list of a name alone that none of them is about. -/
theorem list_of_follow {steps : List (SessionStep α)} {name : String}
    (h : ∀ step ∈ steps, name ∉ step.changed) (s : Session α A) :
    (follow steps s).list name = s.list name := by
  induction steps generalizing s with
  | nil => rfl
  | cons step rest ih =>
    obtain ⟨hstep, hrest⟩ := List.forall_mem_cons.1 h
    rw [follow]
    cases hperform : perform step s with
    | error fault => exact ih hrest s
    | ok o => exact (ih hrest o.state).trans (list_of_perform hperform hstep)

end Session

end SlotChain

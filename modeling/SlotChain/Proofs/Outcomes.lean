import SlotChain.Act

/-!
# Actions that stand for plain ones

An action on a state stands for an action on something simpler, such as a chain for a sequence. The two
are compared by their outcomes: the answers and the events are the same, and the states correspond. The
only other possibility is that the action is refused for want of room, and that only where the plain
outcome does not fit.
-/

namespace SlotChain

variable {σ τ β γ : Type} {fits fits' : Prop} {stands : σ → τ → Prop}

/-! ### Results of one step after another -/

/-- Two steps give a result if both do. -/
theorem bind_eq_ok {ε : Type} {x : Except ε β} {f : β → Except ε γ} {o : γ} :
    (x >>= f) = .ok o ↔ ∃ b, x = .ok b ∧ f b = .ok o := by
  cases x with
  | error e => exact ⟨nofun, nofun⟩
  | ok b => exact ⟨fun h => ⟨b, rfl, h⟩, by rintro ⟨_, ⟨⟩, h⟩; exact h⟩

/-- A rewritten result was there before. -/
theorem map_eq_ok {ε : Type} {x : Except ε β} {f : β → γ} {o : γ} :
    x.map f = .ok o ↔ ∃ b, x = .ok b ∧ f b = o := by
  cases x with
  | error e => exact ⟨nofun, nofun⟩
  | ok b => exact ⟨fun h => ⟨b, rfl, Except.ok.inj h⟩, by rintro ⟨_, ⟨⟩, rfl⟩; rfl⟩

/-- What goes on alike from every result of a first step is alike as a whole. -/
theorem bind_congr_of_ok {ε : Type} {x : Except ε β} {f g : β → Except ε γ}
    (h : ∀ b, x = .ok b → f b = g b) : (x >>= f) = (x >>= g) := by
  cases x with
  | error e => rfl
  | ok b => exact h b rfl

/-! ### Plain outcomes -/

/-- The result of an action matches the outcome of a plain one, or is refused because it does not fit. -/
inductive Matches (fits : Prop) (stands : σ → τ → Prop) :
    Except Fault (Outcome σ β) → Outcome τ β → Prop
  /-- Answer and events agree, and the states correspond. -/
  | done {b : β} {s : σ} {t : τ} {es : List Event} (h : stands s t) :
    Matches fits stands (.ok ⟨b, s, es⟩) ⟨b, t, es⟩
  /-- There was no room. -/
  | refused {o : Outcome τ β} (h : ¬fits) : Matches fits stands (.error .capacityOverflow) o

namespace Matches

variable {r : Except Fault (Outcome σ β)} {o : Outcome τ β}

/-- What fits is not refused. -/
theorem completes (h : Matches fits stands r o) (hfits : fits) :
    ∃ s, r = .ok ⟨o.answer, s, o.events⟩ ∧ stands s o.state := by
  cases h with
  | done h => exact ⟨_, rfl, h⟩
  | refused h => exact absurd hfits h

/-- A completed action has the plain outcome. -/
theorem of_ok {p : Outcome σ β} (h : Matches fits stands r o) (hp : r = .ok p) :
    p.answer = o.answer ∧ p.events = o.events ∧ stands p.state o.state := by
  subst hp
  cases h with
  | done h => exact ⟨rfl, rfl, h⟩

/-- A refusal stays justified where less fits. -/
theorem weaken (h : Matches fits stands r o) (hfits : fits' → fits) : Matches fits' stands r o := by
  cases h with
  | done h => exact .done h
  | refused h => exact .refused fun h' => h (hfits h')

/-- The plain state may be read in another form. -/
theorem restate {υ : Type} {read : τ → υ} {stands : σ → υ → Prop}
    (h : Matches fits (fun s t => stands s (read t)) r o) :
    Matches fits stands r { o with state := read o.state } := by
  cases h with
  | done h => exact .done h
  | refused h => exact .refused h

/-- The answers may be changed alike on both sides. -/
theorem map (h : Matches fits stands r o) (f : β → γ) :
    Matches fits stands (r.map fun p => { p with answer := f p.answer })
      { o with answer := f o.answer } := by
  cases h with
  | done h => exact .done h
  | refused h => exact .refused h

/-- Actions that match one by one match when they are run one after the other. -/
theorem bind {x : Act σ β} {f : β → Act σ γ} {s : σ} {b : β} {t u : τ} {c : γ}
    {es es' : List Event} (hx : Matches fits stands (x s) ⟨b, t, es⟩)
    (hf : ∀ s', stands s' t → Matches fits stands (f b s') ⟨c, u, es'⟩) :
    Matches fits stands ((x >>= f) s) ⟨c, u, es ++ es'⟩ := by
  generalize hr : x s = r at hx
  cases hx with
  | @done _ s' _ _ h =>
    have hp := hf s' h
    generalize hr' : f b s' = r' at hp
    cases hp with
    | done h' =>
      rw [Act.bind_ok hr hr']
      exact .done h'
    | refused h' =>
      rw [Act.bind_error_right hr hr']
      exact .refused h'
  | refused h =>
    rw [Act.bind_error hr]
    exact .refused h

/-- Answering last adds nothing but the answer. -/
theorem andAnswer {x : Act σ β} {s : σ} {b : β} {t : τ} {es : List Event}
    (h : Matches fits stands (x s) ⟨b, t, es⟩) (f : β → γ) :
    Matches fits stands ((do let b ← x; return f b : Act σ γ) s) ⟨f b, t, es⟩ := by
  have hb := h.bind (f := fun b => pure (f b)) fun s' hs' => .done hs'
  rwa [List.append_nil] at hb

end Matches

end SlotChain

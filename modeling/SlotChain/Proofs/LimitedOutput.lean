import SlotChain.Proofs.Reachable
import SlotChain.Proofs.Reference

/-!
# Runs against a limited output

A run whose output has a limit prints the first bytes of what the reference prints, as many as the limit
allows, wherever the limit falls. If everything fits, all operations are applied. Otherwise the run ends
with the first operation whose line goes beyond the limit: that operation has changed the list, although
its line is cut off, and no later operation has. Applying the operations one at a time, up to the first
that fails, comes to the same.
-/

namespace SlotChain.Op

variable {A : Type → Type}

/-- Records of operations that were applied one at a time give the same account as a run. -/
structure Recounts (s : RunState A) (ops : List Op) (records : List (Applied A))
    (o : Outcome (RunState A) (Except CommandError Unit)) : Prop where
  /-- The records are of the first operations, in order. -/
  ops : records.map Applied.op = ops.take records.length
  /-- None but the last operation failed. -/
  succeeded : ∀ r ∈ records.dropLast, r.result = .ok ()
  /-- The run ends as the last operation does. -/
  answer : o.answer = (records.getLast?.map Applied.result).getD (.ok ())
  /-- The list of the run is the one after the last operation. -/
  list : o.state.list = (records.getLast?.map Applied.list).getD s.list
  /-- The output of the run is that of all the operations. -/
  written : o.state.output.written = s.output.written ++ records.flatMap Applied.output
  /-- So are the events. -/
  events : o.events = records.flatMap Applied.events

/-- The record of an operation that was applied on a state. -/
def Applied.of (s : RunState A) (op : Op) (o : Outcome (RunState A) (Except CommandError Unit)) :
    Applied A :=
  ⟨op, o.answer, o.state.output.written.drop s.output.written.length, o.state.list, o.events⟩

/-- Nothing was applied, and nothing changed. -/
theorem recounts_nil (s : RunState A) : Recounts s [] [] ⟨.ok (), s, []⟩ where
  ops := rfl
  succeeded r hr := by cases hr
  answer := rfl
  list := rfl
  written := (List.append_nil _).symm
  events := rfl

/-- An operation that fails is the last one. -/
theorem recounts_failed {s : RunState A} {op : Op} {rest : List Op} {e : CommandError}
    {s' : RunState A} {es : List Event} {bytes : List UInt8}
    (hwritten : s'.output.written = s.output.written ++ bytes) :
    Recounts s (op :: rest) [Applied.of s op ⟨.error e, s', es⟩] ⟨.error e, s', es⟩ where
  ops := rfl
  succeeded r hr := by cases hr
  answer := rfl
  list := rfl
  written := by
    rw [List.flatMap_singleton, Applied.of, hwritten, List.drop_left]
  events := (List.flatMap_singleton _ _).symm

/-- An operation that succeeds comes before the others. -/
theorem Recounts.cons {s : RunState A} {op : Op} {rest : List Op} {s' : RunState A}
    {es : List Event} {bytes : List UInt8} {records : List (Applied A)}
    {o : Outcome (RunState A) (Except CommandError Unit)} (h : Recounts s' rest records o)
    (hwritten : s'.output.written = s.output.written ++ bytes) :
    Recounts s (op :: rest) (Applied.of s op ⟨.ok (), s', es⟩ :: records)
      { o with events := es ++ o.events } where
  ops := by
    rw [List.map_cons, List.length_cons, List.take_succ_cons, h.ops]
    rfl
  succeeded r hr := by
    cases records with
    | nil => cases hr
    | cons next more =>
      rw [List.dropLast_cons_of_ne_nil (List.cons_ne_nil _ _), List.mem_cons] at hr
      rcases hr with rfl | hr
      · rfl
      · exact h.succeeded r hr
  answer := by
    rw [h.answer, List.getLast?_cons]
    cases records.getLast? <;> rfl
  list := by
    rw [h.list, List.getLast?_cons]
    cases records.getLast? <;> rfl
  written := by
    rw [h.written, List.flatMap_cons, hwritten, List.append_assoc, Applied.of, hwritten,
      List.drop_left]
  events := by rw [h.events, List.flatMap_cons, Applied.of]

variable [SlotMap A]

/-- The whole output is that of some operations followed by that of the others. -/
theorem outputAll_append (xs : List String) (before behind : List Op) :
    outputAll xs (before ++ behind) = outputAll xs before ++ outputAll (afterAll xs before) behind := by
  induction before generalizing xs with
  | nil => exact String.empty_append.symm
  | cons op rest ih =>
    have hrest := ih (op.after xs)
    rw [List.cons_append, outputAll, outputAll, hrest, String.append_assoc]
    rfl

/-- A run writes what it would write if it wrote the whole output at once. -/
theorem plainRun_output (ops : List Op) (p : PlainState) :
    (plainRun ops p).state.output = (p.output.write (outputAll p.items ops)).1 ∧
      (plainRun ops p).answer = (p.output.write (outputAll p.items ops)).2.mapError .io := by
  induction ops generalizing p with
  | nil =>
    rw [outputAll, Sink.write_empty]
    exact ⟨rfl, rfl⟩
  | cons op rest ih =>
    rw [outputAll, Sink.write_append, plainRun, plain]
    rcases p.output.write (op.line p.items) with ⟨output, e | _⟩
    · exact ⟨rfl, rfl⟩
    · exact ih ⟨op.after p.items, output⟩

/-- How many operations a run attempts, the one included that fails. -/
def attempts : List Op → PlainState → Nat
  | [], _ => 0
  | op :: rest, p =>
    match (op.plain p).answer with
    | .ok () => attempts rest (op.plain p).state + 1
    | .error _ => 1

/-- A run leaves the sequence that the attempted operations leave. -/
theorem plainRun_items (ops : List Op) (p : PlainState) :
    (plainRun ops p).state.items = afterAll p.items (ops.take (attempts ops p)) := by
  induction ops generalizing p with
  | nil => rfl
  | cons op rest ih =>
    rw [plainRun, attempts]
    have hitems : (op.plain p).state.items = op.after p.items := rfl
    generalize op.plain p = first at hitems ⊢
    obtain ⟨e | _, q, es⟩ := first
    · exact hitems
    · have hrest := ih q
      rw [hitems] at hrest
      exact hrest

/-- The whole output of a run does not fit, and the operation behind the first `k` is the one whose line
goes beyond the room. -/
structure StopsAt (out : Sink) (xs : List String) (ops : List Op) (k : Nat) : Prop where
  /-- There is such an operation. -/
  lt_length : k < ops.length
  /-- The lines up to any earlier operation fit. -/
  fits : ∀ j ≤ k, out.Fits (outputAll xs (ops.take j))
  /-- With the line of this operation they do not. -/
  overflows : ¬out.Fits (outputAll xs (ops.take (k + 1)))

/-- A run attempts all operations if everything fits, and otherwise those up to where it stops. -/
theorem attempts_cases (ops : List Op) (p : PlainState) :
    (p.output.Fits (outputAll p.items ops) ∧ attempts ops p = ops.length) ∨
      ∃ k, StopsAt p.output p.items ops k ∧ attempts ops p = k + 1 := by
  induction ops generalizing p with
  | nil =>
    refine .inl ⟨fun room _ => ?_, rfl⟩
    rw [outputAll, Text.utf8_empty]
    exact Nat.zero_le room
  | cons op rest ih =>
    have hnothing : p.output.Fits (outputAll p.items []) := fun room _ => Nat.zero_le room
    by_cases hline : p.output.Fits (op.line p.items)
    · have hok : (op.plain p).answer = .ok () := by
        simp only [plain, Sink.write_of_fits hline]
        rfl
      -- what is behind the first operation fits if and only if it fits behind its line
      have hbehind : ∀ more, p.output.Fits (outputAll p.items (op :: more)) ↔
          (op.plain p).state.output.Fits (outputAll (op.after p.items) more) := fun more => by
        rw [outputAll, Sink.fits_append_iff]
        exact and_iff_right hline
      simp only [attempts, hok]
      rcases ih (op.plain p).state with ⟨hfits, hall⟩ | ⟨k, hstop, hk⟩
      · refine .inl ⟨(hbehind rest).2 hfits, ?_⟩
        rw [hall, List.length_cons]
      · refine .inr ⟨k + 1, ⟨?_, fun j hj => ?_, fun hfits => ?_⟩, ?_⟩
        · rw [List.length_cons]
          exact Nat.succ_lt_succ hstop.lt_length
        · cases j with
          | zero => exact hnothing
          | succ j => exact (hbehind _).2 (hstop.fits j (Nat.le_of_succ_le_succ hj))
        · exact hstop.overflows ((hbehind _).1 hfits)
        · rw [hk]
    · have herror : (op.plain p).answer = .error (.io .outputFull) := by
        simp only [plain, Sink.write_of_not_fits hline]
        rfl
      simp only [attempts, herror]
      refine .inr ⟨0, ⟨Nat.zero_lt_succ _, fun j hj => ?_, fun hfits => hline ?_⟩, rfl⟩
      · rw [Nat.le_zero.1 hj]
        exact hnothing
      · exact ((Sink.fits_append_iff _ _ _).1 hfits).1

/-- Whatever stops a run keeps the whole output from fitting. -/
theorem StopsAt.not_fits {out : Sink} {xs : List String} {ops : List Op} {k : Nat}
    (h : StopsAt out xs ops k) : ¬out.Fits (outputAll xs ops) := by
  intro hfits
  rw [← List.take_append_drop (k + 1) ops, outputAll_append, Sink.fits_append_iff] at hfits
  exact h.overflows hfits.1

/-- A run succeeds and attempts all operations, or it fails with the one where it stops. -/
theorem plainRun_ends (ops : List Op) (p : PlainState) :
    ((plainRun ops p).answer = .ok () ∧ p.output.Fits (outputAll p.items ops) ∧
        attempts ops p = ops.length) ∨
      ((plainRun ops p).answer = .error (.io .outputFull) ∧
        ∃ k, StopsAt p.output p.items ops k ∧ attempts ops p = k + 1) := by
  rw [(plainRun_output ops p).2]
  rcases attempts_cases ops p with ⟨hfits, hall⟩ | ⟨k, hstop, hk⟩
  · left
    rw [Sink.write_of_fits hfits]
    exact ⟨rfl, hfits, hall⟩
  · right
    rw [Sink.write_of_not_fits hstop.not_fits]
    exact ⟨rfl, k, hstop, hk⟩

/-- Applying operations one at a time gives an account of the run, with a record of every operation
that the run attempts. -/
theorem applyEach_spec {s : RunState A} {p : PlainState} (h : s.StandsFor p) (ops : List Op)
    (hroom : demandAll p.items ops ≤ SlotMap.room A) :
    ∃ o records, run ops s = .ok o ∧ applyEach ops s = .ok records ∧ Recounts s ops records o ∧
      records.length = attempts ops p := by
  induction ops generalizing s p with
  | nil =>
    exact ⟨⟨.ok (), s, []⟩, [], rfl, rfl, recounts_nil s, rfl⟩
  | cons op rest ih =>
    rw [demandAll] at hroom
    obtain ⟨s', happly, hs'⟩ := (apply_spec h op).completes (by omega)
    obtain ⟨bytes, hbytes⟩ := p.output.exists_write_written (op.line p.items)
    have hwritten : s'.output.written = s.output.written ++ bytes := by
      rw [hs'.2, h.2]
      exact hbytes
    have hitems : (op.plain p).state.items = op.after p.items := rfl
    rw [run, applyEach, attempts]
    generalize op.plain p = first at happly hs' hitems ⊢
    obtain ⟨e | _, q, es⟩ := first
    · refine ⟨⟨.error e, s', es⟩, [Applied.of s op ⟨.error e, s', es⟩], ?_, ?_,
        recounts_failed hwritten, rfl⟩
      · refine (Act.bind_ok happly rfl).trans ?_
        rw [List.append_nil]
      · rw [happly]
        rfl
    · obtain ⟨o, records, hrun, heach, hrecounts, hlength⟩ := ih hs' (by rw [hitems]; omega)
      refine ⟨{ o with events := es ++ o.events }, Applied.of s op ⟨.ok (), s', es⟩ :: records,
        ?_, ?_, hrecounts.cons hwritten, ?_⟩
      · exact Act.bind_ok happly hrun
      · rw [happly]
        simp only [bind, Except.bind, heach]
        rfl
      · rw [List.length_cons, hlength]

/-- The number of bytes in the whole output of operations. -/
def outputSize (xs : List String) (ops : List Op) : Nat := (Text.utf8 (outputAll xs ops)).length

/-- In a new output with a limit, what fits is what is not longer than the limit. -/
theorem fits_ofLimit_iff (limit : Nat) (text : String) :
    (Sink.ofLimit (some limit)).Fits text ↔ (Text.utf8 text).length ≤ limit := by
  simp only [Sink.Fits, Sink.ofLimit, Option.some.injEq, forall_eq']

/-- A run against a limited output prints the first bytes of the whole output and succeeds if and only if
the limit allows all of them. Otherwise the list is left well formed, behind the first operation whose
line goes beyond the limit. -/
theorem run_limited {c : Chain String A} {xs : List String} (hc : c.Holds xs) (ops : List Op)
    (limit : Nat) (hroom : demandAll xs ops ≤ SlotMap.room A) :
    ∃ (o : Outcome (RunState A) (Except CommandError Unit)) (records : List (Applied A)),
      run ops ⟨c, .ofLimit (some limit)⟩ = .ok o ∧
      applyEach ops ⟨c, .ofLimit (some limit)⟩ = .ok records ∧
      Recounts ⟨c, .ofLimit (some limit)⟩ ops records o ∧
      o.state.output.written = (Text.utf8 (outputAll xs ops)).take limit ∧
      ((outputSize xs ops ≤ limit ∧ o.answer = .ok () ∧ o.state.list.Intact (afterAll xs ops) ∧
          records.length = ops.length) ∨
        (limit < outputSize xs ops ∧ o.answer = .error (.io .outputFull) ∧
          ∃ k, k < ops.length ∧ (∀ j ≤ k, outputSize xs (ops.take j) ≤ limit) ∧
            limit < outputSize xs (ops.take (k + 1)) ∧
            o.state.list.Intact (afterAll xs (ops.take (k + 1))) ∧ records.length = k + 1)) := by
  have hs : RunState.StandsFor ⟨c, .ofLimit (some limit)⟩ ⟨xs, .ofLimit (some limit)⟩ := ⟨hc, rfl⟩
  obtain ⟨o, records, hrun, heach, hrecounts, hlength⟩ := applyEach_spec hs ops hroom
  obtain ⟨hanswer, -, hlist, houtput⟩ := (run_spec hs ops).of_ok hrun
  rw [(plainRun_output ops _).1] at houtput
  rw [plainRun_items] at hlist
  refine ⟨o, records, hrun, heach, hrecounts, by rw [houtput]; rfl, ?_⟩
  rcases attempts_cases ops ⟨xs, .ofLimit (some limit)⟩ with ⟨hfits, hall⟩ | ⟨k, hstop, hk⟩
  · left
    rw [hall, List.take_length] at hlist
    rw [(plainRun_output ops _).2, Sink.write_of_fits hfits] at hanswer
    exact ⟨(fits_ofLimit_iff _ _).1 hfits, hanswer, hlist.intact, hlength.trans hall⟩
  · right
    have hfull := hstop.not_fits
    rw [hk] at hlist
    rw [(plainRun_output ops _).2, Sink.write_of_not_fits hfull] at hanswer
    refine ⟨?_, hanswer, k, hstop.lt_length, fun j hj => ?_, ?_, hlist.intact, hlength.trans hk⟩
    · exact Nat.lt_of_not_le fun hle => hfull ((fits_ofLimit_iff _ _).2 hle)
    · exact (fits_ofLimit_iff _ _).1 (hstop.fits j hj)
    · exact Nat.lt_of_not_le fun hle => hstop.overflows ((fits_ofLimit_iff _ _).2 hle)

/-- The limit cuts a line inside of a character. The value has been removed all the same, and the other
one has not. -/
theorem run_limited_accent :
    ∃ (c : Chain String) (o : Outcome RunState (Except CommandError Unit)),
      ListStep.performAll [.append "a", .append "é"] .empty = (c, .ok [.done, .done]) ∧
        c.Holds ["a", "é"] ∧
        demandAll ["a", "é"] [.len, .deleteTail, .deleteHead] ≤ SlotMap.room Arena ∧
        run [.len, .deleteTail, .deleteHead] ⟨c, .ofLimit (some 4)⟩ = .ok o ∧
        o.state.output.written = [50, 10, 34, 195] ∧
        o.answer = .error (.io .outputFull) ∧ o.state.list.items = .ok ["a"] := by
  obtain ⟨c, hperform, -, hheld⟩ :=
    Chain.Reachable.of_steps (A := Arena) [.append "a", .append "é"] (by decide)
  have hc : c.Holds ["a", "é"] := hheld
  have hroom : demandAll ["a", "é"] [.len, .deleteTail, .deleteHead] ≤ SlotMap.room Arena := by
    decide
  obtain ⟨o, records, hrun, -, -, hwritten, hcases⟩ :=
    run_limited hc [.len, .deleteTail, .deleteHead] 4 hroom
  have hbytes : Text.utf8 (outputAll ["a", "é"] [.len, .deleteTail, .deleteHead]) =
      [50, 10, 34, 195, 169, 34, 10, 34, 97, 34, 10] := by decide +kernel
  have hone : outputSize ["a", "é"] [.len] = 2 := by decide +kernel
  have htwo : outputSize ["a", "é"] [.len, .deleteTail] = 7 := by decide +kernel
  rw [hbytes] at hwritten
  rcases hcases with ⟨hle, -⟩ | ⟨-, hanswer, k, -, hfits, hover, hintact, -⟩
  · rw [outputSize, hbytes] at hle
    exact absurd hle (by decide)
  · have hk : k = 1 := by
      match k with
      | 0 =>
        have hlt : 4 < outputSize ["a", "é"] [.len] := hover
        omega
      | 1 => rfl
      | k + 2 =>
        have hle : outputSize ["a", "é"] [.len, .deleteTail] ≤ 4 := hfits 2 (Nat.le_add_left 2 k)
        omega
    subst hk
    exact ⟨c, o, hperform, hc, hroom, hrun, hwritten, hanswer, hintact.readable⟩

end SlotChain.Op

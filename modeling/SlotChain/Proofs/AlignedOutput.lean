import SlotChain.Proofs.Readback
import SlotChain.Proofs.ScriptText

/-!
# The output of scripts, line by line

Items without line feeds stay the only ones in a list as long as no operation brings in another, and the
insertions of a script never do. So whatever is shown stays on one line, even the text of the whole list,
in which the items stand as they are: the output of a script has one line for each operation that shows
something, and none for the others. Operations that are not read from a script may insert a line feed,
and then this fails.
-/

namespace SlotChain.Op

/-! ### Items without line feeds -/

/-- No item holds a line feed. -/
def LineFree (xs : List String) : Prop := ∀ x ∈ xs, '\n' ∉ x.toList

/-- An operation inserts no line feed. -/
def Tame (op : Op) : Prop := ∀ value ∈ op.value?, '\n' ∉ value.toList

/-- The operations of a script insert no line feed. -/
theorem tame_of_parse {text : String} {ops : List Op} (h : Script.parse text = .ok ops) :
    ∀ op ∈ ops, op.Tame :=
  fun op hop value hvalue => (Script.writable_of_parse h op hop value hvalue).no_lineFeed

namespace LineFree

variable {xs : List String}

/-- An operation that inserts no line feed leaves the items without any. -/
theorem after (h : LineFree xs) {op : Op} (hop : op.Tame) : LineFree (op.after xs) := by
  cases op with
  | prepend value => exact List.forall_mem_cons.2 ⟨hop value rfl, h⟩
  | append value => exact List.forall_mem_append.2 ⟨h, List.forall_mem_singleton.2 (hop value rfl)⟩
  | deleteHead => exact fun x hx => h x (List.mem_of_mem_tail hx)
  | deleteTail => exact fun x hx => h x (List.dropLast_subset xs hx)
  | len => exact h
  | print => exact h

/-- So do several operations. -/
theorem afterAll (h : LineFree xs) {ops : List Op} (hops : ∀ op ∈ ops, op.Tame) :
    LineFree (afterAll xs ops) := by
  induction ops generalizing xs with
  | nil => exact h
  | cons op rest ih =>
    obtain ⟨hop, hrest⟩ := List.forall_mem_cons.1 hops
    exact ih (h.after hop) hrest

/-- The text of the whole list stays on one line. -/
theorem lineFeed_notMem_render (h : LineFree xs) : '\n' ∉ (Display.render xs).toList := by
  have hpieces : ∀ piece ∈ Display.pieces xs, '\n' ∉ piece.toList := by
    cases xs with
    | nil => exact List.forall_mem_singleton.2 (by decide +kernel)
    | cons x rest =>
      refine List.forall_mem_append.2 ⟨?_, List.forall_mem_singleton.2 (by decide +kernel)⟩
      refine List.forall_mem_cons.2 ⟨by decide +kernel, ?_⟩
      refine List.forall_mem_cons.2 ⟨by decide +kernel, ?_⟩
      intro piece hpiece
      obtain ⟨y, hy, hmem⟩ := List.mem_flatMap.1 hpiece
      rcases List.mem_pair.1 hmem with rfl | rfl
      · exact h piece hy
      · decide +kernel
  rw [Display.render, String.toList_join, List.mem_flatMap]
  rintro ⟨piece, hpiece, hmem⟩
  exact hpieces piece hpiece hmem

/-- What an operation shows stays on one line. -/
theorem lineFeed_notMem_result (h : LineFree xs) (op : Op) :
    ∀ text ∈ op.result? xs, '\n' ∉ text.toList := by
  intro text htext
  by_cases hop : op = print
  · subst hop
    cases htext
    exact h.lineFeed_notMem_render
  · rw [result?_eq_report? hop] at htext
    obtain ⟨r, -, rfl⟩ := Option.map_eq_some_iff.1 htext
    exact r.lineFeed_notMem_text

/-- So does all that operations show. -/
theorem lineFeed_notMem_results (h : LineFree xs) {ops : List Op} (hops : ∀ op ∈ ops, op.Tame) :
    ∀ text ∈ results xs ops, '\n' ∉ text.toList := by
  induction ops generalizing xs with
  | nil => exact List.forall_mem_nil _
  | cons op rest ih =>
    obtain ⟨hop, hrest⟩ := List.forall_mem_cons.1 hops
    refine List.forall_mem_append.2 ⟨fun text htext => ?_, ih (h.after hop) hrest⟩
    exact h.lineFeed_notMem_result op text (Option.mem_toList.1 htext)

end LineFree

/-! ### What operations show -/

/-- Whether an operation shows something. -/
def shows : Op → Bool
  | deleteHead => true
  | deleteTail => true
  | len => true
  | print => true
  | _ => false

theorem isSome_result? (xs : List String) (op : Op) : (op.result? xs).isSome = op.shows := by
  cases op <;> rfl

/-- As many lines are shown as there are operations that show one. -/
theorem length_results (xs : List String) (ops : List Op) :
    (results xs ops).length = ops.countP shows := by
  induction ops generalizing xs with
  | nil => rfl
  | cons op rest ih =>
    rw [results, List.length_append, ih, List.countP_cons, ← isSome_result? xs op, Nat.add_comm]
    cases op.result? xs <;> rfl

/-- What some operations show comes before what the others show. -/
theorem results_append (xs : List String) (before behind : List Op) :
    results xs (before ++ behind) = results xs before ++ results (afterAll xs before) behind := by
  induction before generalizing xs with
  | nil => rfl
  | cons op rest ih =>
    have hrest := ih (op.after xs)
    rw [List.cons_append, results, results, hrest, List.append_assoc]
    rfl

/-- What one operation shows stands where those before it have shown as much as they do. -/
theorem getElem?_results {xs : List String} {before behind : List Op} {op : Op} {text : String}
    (h : op.result? (afterAll xs before) = some text) :
    (results xs (before ++ op :: behind))[before.countP shows]? = some text := by
  rw [results_append, results, h, ← length_results xs before,
    List.getElem?_append_right (Nat.le_refl _), Nat.sub_self]
  rfl

variable {A : Type → Type} [SlotMap A]

/-- What an operation shows when the list itself is asked. -/
def shown (c : Chain String A) : Op → Except Fault (Option String)
  | deleteHead => (Chain.deleteHead c).map fun o => some (removedText o.answer)
  | deleteTail => (Chain.deleteTail c).map fun o => some (removedText o.answer)
  | len => .ok (some (Text.natural c.len))
  | print => c.display.map some
  | _ => .ok none

/-- A list shows what the sequence of its items shows. -/
theorem shown_eq {c : Chain String A} {xs : List String} (hc : c.Holds xs) (op : Op) :
    op.shown c = .ok (op.result? xs) := by
  cases op with
  | deleteHead =>
    obtain ⟨d, hdelete, -⟩ := hc.deleteHead.completes trivial
    rw [shown, hdelete]
    rfl
  | deleteTail =>
    obtain ⟨d, hdelete, -⟩ := hc.deleteTail.completes trivial
    rw [shown, hdelete]
    rfl
  | len => rw [shown, hc.len_eq, result?]
  | print =>
    have htext : xs.map Item.text = xs := List.map_id xs
    rw [shown, Chain.display, hc.items_eq]
    simp only [Except.map, htext, result?]
  | _ => rfl

/-! ### Runs -/

/-- What one operation of a run writes, between the outcome of the operations before it and the outcome
with it. -/
structure WritesLine (op : Op) (before after : Outcome (RunState A) (Except CommandError Unit))
    (text? : Option String) (lines : List (List UInt8)) (i : Nat) : Prop where
  /-- What the operation shows is told by the list before it. -/
  shown : op.shown before.state.list = .ok text?
  /-- Insertions show nothing, and all other operations show something. -/
  shows : text?.isSome = op.shows
  /-- What is shown is written with the end of a line behind it. -/
  written : after.state.output.written =
    before.state.output.written ++ text?.elim [] fun text => Text.utf8 text ++ [10]
  /-- It is one line, and the line of the whole output with this number. -/
  line : ∀ text ∈ text?, '\n' ∉ text.toList ∧ lines[i]? = some (Text.utf8 text)

/-- A successful run whose output has one line for each operation that shows something. -/
structure Aligned (c : Chain String A) (limit : Option Nat) (ops : List Op) (written : List UInt8) :
    Prop where
  /-- Every line of the output is ended, and there are as many as operations that show something. -/
  lines : ∃ lines, written.splitOn 10 = lines ++ [[]] ∧ lines.length = ops.countP shows
  /-- Behind any of the operations the list is in good order, and no item holds a line feed. -/
  free : ∀ before behind, ops = before ++ behind →
    ∃ o ys, run before ⟨c, .ofLimit limit⟩ = .ok o ∧ o.answer = .ok () ∧ o.state.list.Intact ys ∧
      LineFree ys
  /-- Each operation writes its line behind those of the operations before it, or nothing. -/
  moments : ∀ before op behind, ops = before ++ op :: behind →
    ∃ o o' text?, run before ⟨c, .ofLimit limit⟩ = .ok o ∧
      run (before ++ [op]) ⟨c, .ofLimit limit⟩ = .ok o' ∧
      WritesLine op o o' text? (written.splitOn 10) (before.countP shows)

/-- The bytes of the line of an operation are those of what it shows and of the end of the line. -/
theorem utf8_line (xs : List String) (op : Op) :
    Text.utf8 (op.line xs) = (op.result? xs).elim [] fun text => Text.utf8 text ++ [10] := by
  rw [line]
  cases op.result? xs with
  | none => rfl
  | some text => exact Text.utf8_append text "\n"

/-- Every successful run of operations that insert no line feed is aligned with its output. -/
theorem aligned {c : Chain String A} {xs : List String} (hc : c.Holds xs) (hxs : LineFree xs)
    {ops : List Op} (hops : ∀ op ∈ ops, op.Tame) {limit : Option Nat}
    {o : Outcome (RunState A) (Except CommandError Unit)}
    (hrun : run ops ⟨c, .ofLimit limit⟩ = .ok o) (hok : o.answer = .ok ()) :
    Aligned c limit ops o.state.output.written := by
  have hlines : o.state.output.written.splitOn 10 = (results xs ops).map Text.utf8 ++ [[]] := by
    rw [(run_succeeded hc hrun hok).1, utf8_outputAll,
      Text.splitOn_lineFeed (hxs.lineFeed_notMem_results hops)]
  refine ⟨⟨_, hlines, ?_⟩, fun before behind hcut => ?_, fun before op behind hcut => ?_⟩
  · rw [List.length_map, length_results]
  · subst hcut
    obtain ⟨o', hbefore, hok'⟩ := run_front hrun hok
    have hheld := (run_succeeded hc hbefore hok').2
    have hfree := hxs.afterAll (List.forall_mem_append.1 hops).1
    exact ⟨o', _, hbefore, hok', hheld.intact, hfree⟩
  · have hcut' : ops = (before ++ [op]) ++ behind := by rw [hcut, List.append_assoc]; rfl
    rw [hlines]
    rw [hcut'] at hrun hops
    obtain ⟨o₂, hwith, hok₂⟩ := run_front hrun hok
    obtain ⟨o₁, hbefore, hok₁⟩ := run_front hwith hok₂
    obtain ⟨hwritten₁, hheld⟩ := run_succeeded hc hbefore hok₁
    have hwritten₂ := (run_succeeded hc hwith hok₂).1
    have htame := List.forall_mem_append.1 (List.forall_mem_append.1 hops).1
    refine ⟨o₁, o₂, op.result? (afterAll xs before), hbefore, hwith, shown_eq hheld op,
      isSome_result? _ op, ?_, fun text htext => ⟨?_, ?_⟩⟩
    · rw [hwritten₂, hwritten₁, outputAll_append, Text.utf8_append, ← utf8_line]
      simp only [outputAll, String.append_empty]
    · exact (hxs.afterAll htame.1).lineFeed_notMem_result op text htext
    · have hhere : (results xs (before ++ op :: behind))[before.countP shows]? = some text :=
        getElem?_results htext
      have hlt := (List.getElem?_eq_some_iff.1 hhere).1
      rw [← List.length_map Text.utf8] at hlt
      rw [hcut, List.getElem?_append_left hlt, List.getElem?_map, hhere]
      rfl

/-- The output of a script has one line for each operation that shows something, whatever the values in
it are, if no item of the list that it starts with holds a line feed. The script succeeds if the output has
no limit and there is room for the items. If it succeeds, no item ever holds a line feed, and each line is
the whole of what one operation shows. -/
theorem run_script_aligned {text : String} {ops : List Op} (hparse : Script.parse text = .ok ops)
    {c : Chain String A} {xs : List String} (hc : c.Holds xs) (hxs : LineFree xs) :
    (demandAll xs ops ≤ SlotMap.room A →
        ∃ o, run ops ⟨c, .ofLimit none⟩ = .ok o ∧ o.answer = .ok ()) ∧
      ∀ limit o, run ops ⟨c, .ofLimit limit⟩ = .ok o → o.answer = .ok () →
        Aligned c limit ops o.state.output.written := by
  refine ⟨fun hroom => ?_, fun limit o hrun hok => aligned hc hxs (tame_of_parse hparse) hrun hok⟩
  have hs : RunState.StandsFor ⟨c, .ofLimit none⟩ ⟨xs, .ofLimit none⟩ := ⟨hc, rfl⟩
  obtain ⟨s', hrun, -⟩ := (run_spec hs ops).completes hroom
  refine ⟨_, hrun, ?_⟩
  rw [(plainRun_output ops _).2]
  rfl

-- An operation that is not read from a script may insert a line feed. Then one text takes two lines.
example : (Text.utf8 (outputAll [] [.append "a\nb", .print])).splitOn 10 =
    [Text.utf8 "NULL <- a", Text.utf8 "b -> NULL", []] := by decide +kernel

/-- A value with a carriage return and a quotation mark in it, shown raw and then quoted. -/
theorem run_script_aligned_odd_value :
    ∃ (c : Chain String) (o : Outcome RunState (Except CommandError Unit)),
      ListStep.performAll [.append "x"] .empty = (c, .ok [.done]) ∧
        Script.parse "append a\r\"b\nprint\n# note\ndelete-tail\nlen" =
          .ok [.append "a\r\"b", print, deleteTail, len] ∧
        c.Holds ["x"] ∧ LineFree ["x"] ∧
        demandAll ["x"] [.append "a\r\"b", print, deleteTail, len] ≤ SlotMap.room Arena ∧
        run [.append "a\r\"b", print, deleteTail, len] ⟨c, .ofLimit none⟩ = .ok o ∧
        o.answer = .ok () ∧
        Aligned c none [.append "a\r\"b", print, deleteTail, len] o.state.output.written ∧
        o.state.output.written =
          Text.utf8 "NULL <- x -> a\r\"b -> NULL\n\"a\\r\\\"b\"\n1\n" := by
  obtain ⟨c, hperform, -, hheld⟩ := Chain.Reachable.of_steps (A := Arena) [.append "x"] (by decide)
  have hc : c.Holds ["x"] := hheld
  have hfree : LineFree ["x"] := List.forall_mem_singleton.2 (by decide +kernel)
  have hparse : Script.parse "append a\r\"b\nprint\n# note\ndelete-tail\nlen" =
      .ok [.append "a\r\"b", print, deleteTail, len] := by decide +kernel
  have hroom : demandAll ["x"] [.append "a\r\"b", print, deleteTail, len] ≤ SlotMap.room Arena := by
    decide
  obtain ⟨hsucceeds, haligned⟩ := run_script_aligned hparse hc hfree
  obtain ⟨o, hrun, hok⟩ := hsucceeds hroom
  have houtput : Text.utf8 (outputAll ["x"] [.append "a\r\"b", print, deleteTail, len]) =
      Text.utf8 "NULL <- x -> a\r\"b -> NULL\n\"a\\r\\\"b\"\n1\n" := by decide +kernel
  exact ⟨c, o, hperform, hparse, hc, hfree, hroom, hrun, hok, haligned none o hrun hok,
    (run_succeeded hc hrun hok).1.trans houtput⟩

end SlotChain.Op

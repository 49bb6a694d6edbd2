import SlotChain.Proofs.LimitedOutput
import SlotChain.Proofs.Quotation
import Mathlib.Data.List.Basic

/-!
# Runs can be read back from their output

Deletions and questions for the length each print one line, and no other operation prints any, except the
one that shows the whole list. Without that one the output falls into exactly those lines wherever a line
feed stands, because no removed item is written with a line feed. Each line can then be read by itself: it
is the mark of a deletion that found nothing, a quoted item or a number, and never two of them. So whoever
has the output knows what was removed and which lengths were seen, without the list.
-/

namespace SlotChain

/-! ### Lines of bytes -/

namespace Text

/-- Only a line feed is encoded with the byte of a line feed. -/
theorem eq_lineFeed_of_mem {c : Char} (h : (10 : UInt8) ∈ String.utf8EncodeChar c) : c = '\n' := by
  have hvalue : ∀ v < 256, (10 : UInt8) = UInt8.ofNat v → v = 10 := by
    intro v hv hbyte
    have hnat := congrArg UInt8.toNat hbyte
    rw [UInt8.toNat_ofNat', Nat.mod_eq_of_lt hv] at hnat
    exact hnat.symm
  -- a character of several bytes has none below 128
  rw [String.utf8EncodeChar] at h
  split at h
  · rename_i hone
    rw [List.mem_singleton] at h
    have hten := hvalue _ (by omega) h
    rw [← Char.ofNat_toNat c, Char.toNat, hten]
  · split at h
    · rw [List.mem_pair] at h
      rcases h with h | h <;> exact absurd (hvalue _ (by omega) h) (by omega)
    · split at h
      · simp only [List.mem_cons, List.not_mem_nil, or_false] at h
        rcases h with h | h | h <;> exact absurd (hvalue _ (by omega) h) (by omega)
      · simp only [List.mem_cons, List.not_mem_nil, or_false] at h
        rcases h with h | h | h | h <;> exact absurd (hvalue _ (by omega) h) (by omega)

/-- The bytes of a text without line feed hold none. -/
theorem lineFeed_notMem_utf8 {s : String} (h : '\n' ∉ s.toList) : 10 ∉ utf8 s := by
  rw [utf8, List.mem_flatMap]
  rintro ⟨c, hc, hbyte⟩
  rw [eq_lineFeed_of_mem hbyte] at hc
  exact h hc

/-- Texts with a line feed behind each are cut into their bytes again. Nothing stands behind the last
line feed. -/
theorem splitOn_lineFeed {lines : List String} (h : ∀ line ∈ lines, '\n' ∉ line.toList) :
    (lines.flatMap fun line => utf8 (line ++ "\n")).splitOn 10 = lines.map utf8 ++ [[]] := by
  have hjoined : (lines.flatMap fun line => utf8 (line ++ "\n")) =
      [10].intercalate (lines.map utf8 ++ [[]]) := by
    induction lines with
    | nil => rfl
    | cons line rest ih =>
      have hrest := ih fun l hl => h l (List.mem_cons_of_mem line hl)
      have hsome : rest.map utf8 ++ [[]] ≠ [] :=
        List.append_ne_nil_of_right_ne_nil _ (List.cons_ne_nil _ _)
      rw [List.flatMap_cons, hrest, List.map_cons, List.cons_append,
        List.intercalate_cons_of_ne_nil hsome, utf8_append]
      rfl
  have hfeed : ∀ bytes ∈ lines.map utf8 ++ [[]], 10 ∉ bytes := by
    intro bytes hbytes
    rw [List.mem_append, List.mem_map, List.mem_singleton] at hbytes
    rcases hbytes with ⟨line, hline, rfl⟩ | rfl
    · exact lineFeed_notMem_utf8 (h line hline)
    · exact List.not_mem_nil
  rw [hjoined, List.splitOn_intercalate 10 hfeed
    (List.append_ne_nil_of_right_ne_nil _ (List.cons_ne_nil _ _))]

end Text

/-! ### Reports -/

/-- What a line of the output reports. -/
inductive Report where
  /-- A deletion, with the item that it removed, if there was one. -/
  | removed (item : Option String)
  /-- A number of items. -/
  | counted (n : Nat)
deriving Repr, DecidableEq

namespace Report

/-- The text of a report. -/
def text : Report → String
  | removed item => Op.removedText item
  | counted n => Text.natural n

/-- The bytes of a report, without the end of its line. -/
def bytes (r : Report) : List UInt8 := Text.utf8 r.text

/-- Read the text of one line. -/
def ofText? (line : List Char) : Option Report :=
  if line = emptyMark.toList then some (removed none)
  else if line.head? = some '"' then
    (Text.unquote line).map fun item => removed (some (String.ofList item))
  else if line.isEmpty || !line.all Char.isDigit then none
  else some (counted (Nat.ofDigitChars 10 line 0))

/-- Read the bytes of one line. -/
def ofBytes? (line : List UInt8) : Option Report :=
  (String.fromUTF8? line.toByteArray).bind fun s => ofText? s.toList

/-- The text of a report is read as the report. -/
theorem ofText?_text (r : Report) : ofText? r.text.toList = some r := by
  cases r with
  | removed item =>
    cases item with
    | none => rfl
    | some value =>
      have hquote : (Text.quoted value).toList.head? = some '"' := by
        rw [Text.quoted, String.toList_ofList, List.cons_append, List.head?_cons]
      have hmark : (Text.quoted value).toList ≠ emptyMark.toList := fun h => by
        rw [h] at hquote
        exact absurd hquote (by decide)
      rw [text, Op.removedText, ofText?, if_neg hmark, if_pos hquote, Text.unquote_quoted,
        Option.map_some, String.ofList_toList]
  | counted n =>
    have hdigits : ∀ c ∈ Nat.toDigits 10 n, c.isDigit = true := fun c hc =>
      Nat.isDigit_of_mem_toDigits (by decide) (by decide) hc
    -- neither the mark nor a quoted text starts with a digit
    have hfirst : ∀ c, c.isDigit = false → (Nat.toDigits 10 n).head? ≠ some c := by
      intro c hc hhead
      rw [hdigits c (List.mem_of_mem_head? hhead)] at hc
      cases hc
    have hmark : Nat.toDigits 10 n ≠ emptyMark.toList := fun h =>
      hfirst '(' (by decide) (by rw [h]; decide)
    have hsome : Nat.toDigits 10 n ≠ [] := Nat.toDigits_ne_nil
    have hnumber : ((Nat.toDigits 10 n).isEmpty || !(Nat.toDigits 10 n).all Char.isDigit) = false := by
      rw [List.isEmpty_eq_false_iff.2 hsome, List.all_eq_true.2 hdigits]
      rfl
    rw [text, Text.natural, String.toList_ofList, ofText?, if_neg hmark,
      if_neg (hfirst '"' (by decide)), hnumber, if_neg Bool.false_ne_true,
      Nat.ofDigitChars_ten_toDigits]

/-- The bytes of a report are read as the report. -/
theorem ofBytes?_bytes (r : Report) : ofBytes? r.bytes = some r := by
  have hbytes : r.bytes.toByteArray = r.text.toByteArray := by
    rw [bytes, Text.utf8, ← List.utf8Encode, String.utf8Encode_toList]
  rw [ofBytes?, hbytes, String.fromUTF8?, dif_pos r.text.isValidUTF8]
  exact ofText?_text r

/-- Two reports are not written alike. -/
theorem bytes_injective : Function.Injective bytes := by
  intro r r' h
  have hread := ofBytes?_bytes r
  rw [h, ofBytes?_bytes r'] at hread
  exact (Option.some.inj hread).symm

/-- A report stays on its line. -/
theorem lineFeed_notMem_text (r : Report) : '\n' ∉ r.text.toList := by
  cases r with
  | removed item =>
    cases item with
    | none => decide
    | some value => exact Text.lineFeed_notMem_quoted value
  | counted n =>
    rw [text, Text.natural, String.toList_ofList]
    intro hmem
    exact absurd (Nat.isDigit_of_mem_toDigits (by decide) (by decide) hmem) (by decide)

end Report

/-! ### Runs -/

namespace Op

/-- What an operation on a sequence reports, if it reports anything. -/
def report? (xs : List String) : Op → Option Report
  | deleteHead => some (.removed xs.head?)
  | deleteTail => some (.removed xs.getLast?)
  | len => some (.counted xs.length)
  | _ => none

/-- What operations one after the other report. -/
def reports : List String → List Op → List Report
  | _, [] => []
  | xs, op :: rest => (op.report? xs).toList ++ reports (op.after xs) rest

/-- Whether an operation deletes. -/
def isDeletion : Op → Bool
  | deleteHead => true
  | deleteTail => true
  | _ => false

/-- An operation reports if and only if it deletes or asks for the length. -/
theorem isSome_report? (xs : List String) (op : Op) :
    (op.report? xs).isSome = (op.isDeletion || op == len) := by
  cases op <;> rfl

/-- A report is that of a deletion which found nothing if and only if the sequence was empty. -/
theorem report?_eq_removed_none (xs : List String) (op : Op) :
    op.report? xs = some (.removed none) ↔ op.isDeletion = true ∧ xs = [] := by
  cases op with
  | deleteHead => simp only [report?, isDeletion, Option.some.injEq, Report.removed.injEq,
      List.head?_eq_none_iff, true_and]
  | deleteTail => simp only [report?, isDeletion, Option.some.injEq, Report.removed.injEq,
      List.getLast?_eq_none_iff, true_and]
  | _ => simp only [report?, isDeletion, reduceCtorEq, Option.some.injEq, Bool.false_eq_true, false_and]

/-- The reports of some operations come before those of the others. -/
theorem reports_append (xs : List String) (before behind : List Op) :
    reports xs (before ++ behind) = reports xs before ++ reports (afterAll xs before) behind := by
  induction before generalizing xs with
  | nil => rfl
  | cons op rest ih =>
    have hrest := ih (op.after xs)
    rw [List.cons_append, reports, reports, hrest, List.append_assoc]
    rfl

/-- The line of an operation is its report, unless it shows the whole list. -/
theorem result?_eq_report? {op : Op} (hop : op ≠ print) (xs : List String) :
    op.result? xs = (op.report? xs).map Report.text := by
  cases op with
  | print => exact absurd rfl hop
  | _ => rfl

/-- What operations one after the other show. -/
def results : List String → List Op → List String
  | _, [] => []
  | xs, op :: rest => (op.result? xs).toList ++ results (op.after xs) rest

/-- The whole output of operations is what they show, with the end of a line behind each. -/
theorem utf8_outputAll (xs : List String) (ops : List Op) :
    Text.utf8 (outputAll xs ops) = (results xs ops).flatMap fun line => Text.utf8 (line ++ "\n") := by
  induction ops generalizing xs with
  | nil => rfl
  | cons op rest ih =>
    rw [outputAll, Text.utf8_append, ih, results, List.flatMap_append, line]
    cases op.result? xs with
    | none => rfl
    | some text => rw [Option.toList_some, List.flatMap_singleton]

/-- Operations show what they report, unless one of them shows the whole list. -/
theorem results_eq_map_reports {ops : List Op} (hprint : print ∉ ops) (xs : List String) :
    results xs ops = (reports xs ops).map Report.text := by
  induction ops generalizing xs with
  | nil => rfl
  | cons op rest ih =>
    rw [List.mem_cons, not_or] at hprint
    rw [results, reports, List.map_append, ih hprint.2, result?_eq_report? (Ne.symm hprint.1)]
    cases op.report? xs <;> rfl

/-- The whole output is cut into one line for each report. -/
theorem splitOn_outputAll {ops : List Op} (hprint : print ∉ ops) (xs : List String) :
    (Text.utf8 (outputAll xs ops)).splitOn 10 = (reports xs ops).map Report.bytes ++ [[]] := by
  have hfeed : ∀ line ∈ (reports xs ops).map Report.text, '\n' ∉ line.toList := by
    rw [List.forall_mem_map]
    exact fun r _ => r.lineFeed_notMem_text
  rw [utf8_outputAll, results_eq_map_reports hprint, Text.splitOn_lineFeed hfeed, List.map_map]
  rfl

variable {A : Type → Type} [SlotMap A]

/-- What an operation reports when the list itself is asked. -/
def observe (c : Chain String A) : Op → Except Fault (Option Report)
  | deleteHead => (Chain.deleteHead c).map fun o => some (.removed o.answer)
  | deleteTail => (Chain.deleteTail c).map fun o => some (.removed o.answer)
  | len => .ok (some (.counted c.len))
  | _ => .ok none

/-- A list reports what the sequence of its items reports. -/
theorem observe_eq {c : Chain String A} {xs : List String} (hc : c.Holds xs) (op : Op) :
    op.observe c = .ok (op.report? xs) := by
  cases op with
  | deleteHead =>
    obtain ⟨d, hdelete, -⟩ := hc.deleteHead.completes trivial
    rw [observe, hdelete]
    rfl
  | deleteTail =>
    obtain ⟨d, hdelete, -⟩ := hc.deleteTail.completes trivial
    rw [observe, hdelete]
    rfl
  | len => rw [observe, hc.len_eq, report?]
  | _ => rfl

/-- A run that succeeds has written the whole output and applied all operations. -/
theorem run_succeeded {c : Chain String A} {xs : List String} (hc : c.Holds xs) {ops : List Op}
    {limit : Option Nat} {o : Outcome (RunState A) (Except CommandError Unit)}
    (hrun : run ops ⟨c, .ofLimit limit⟩ = .ok o) (hok : o.answer = .ok ()) :
    o.state.output.written = Text.utf8 (outputAll xs ops) ∧ o.state.list.Holds (afterAll xs ops) := by
  have hs : RunState.StandsFor ⟨c, .ofLimit limit⟩ ⟨xs, .ofLimit limit⟩ := ⟨hc, rfl⟩
  obtain ⟨hanswer, -, hlist, houtput⟩ := (run_spec hs ops).of_ok hrun
  rw [plainRun_items] at hlist
  rw [hok] at hanswer
  rcases plainRun_ends ops ⟨xs, .ofLimit limit⟩ with ⟨-, hfits, hall⟩ | ⟨hfull, -⟩
  · rw [hall, List.take_length] at hlist
    rw [houtput, (plainRun_output ops _).1, Sink.written_of_fits hfits]
    exact ⟨rfl, hlist⟩
  · rw [hfull] at hanswer
    cases hanswer

/-- A run that succeeds has succeeded with its first operations before. -/
theorem run_front {s : RunState A} {before behind : List Op}
    {o : Outcome (RunState A) (Except CommandError Unit)} (hrun : run (before ++ behind) s = .ok o)
    (hok : o.answer = .ok ()) : ∃ o', run before s = .ok o' ∧ o'.answer = .ok () := by
  induction before generalizing s o with
  | nil => exact ⟨⟨.ok (), s, []⟩, rfl, rfl⟩
  | cons op rest ih =>
    rw [List.cons_append, run] at hrun
    rw [run]
    cases hfirst : op.apply s with
    | error fault =>
      rw [Act.bind_error hfirst] at hrun
      cases hrun
    | ok first =>
      obtain ⟨answer, s', es⟩ := first
      cases answer with
      | error e =>
        rw [Act.bind_ok hfirst rfl] at hrun
        cases hrun
        cases hok
      | ok _ =>
        cases hothers : run (rest ++ behind) s' with
        | error fault =>
          rw [Act.bind_error_right hfirst hothers] at hrun
          cases hrun
        | ok others =>
          rw [Act.bind_ok hfirst hothers] at hrun
          cases hrun
          obtain ⟨o', hrest, hok'⟩ := ih hothers hok
          exact ⟨_, Act.bind_ok hfirst hrest, hok'⟩

/-- A successful run told by its output. -/
structure ToldBy (c : Chain String A) (xs : List String) (limit : Option Nat) (ops : List Op)
    (written : List UInt8) : Prop where
  /-- The output is cut by line feeds into one line for each report, in order, and nothing behind. -/
  lines : written.splitOn 10 = (reports xs ops).map Report.bytes ++ [[]]
  /-- When an operation is applied, the list holds what the operations before it left. If the operation
  deletes or asks for the length, that list reports something, and the line behind those of the operations
  before it is read as just that. The line is the mark of an empty list if and only if the operation
  deletes and the list is empty. -/
  moments : ∀ before op behind, ops = before ++ op :: behind →
    ∃ o, run before ⟨c, .ofLimit limit⟩ = .ok o ∧ o.answer = .ok () ∧
      o.state.list.Intact (afterAll xs before) ∧
      op.observe o.state.list = .ok (op.report? (afterAll xs before)) ∧
      (op.report? (afterAll xs before)).isSome = (op.isDeletion || op == len) ∧
      ∀ r ∈ op.report? (afterAll xs before),
        (written.splitOn 10)[(reports xs before).length]? = some r.bytes ∧
          Report.ofBytes? r.bytes = some r ∧
          (r.bytes = Text.utf8 emptyMark ↔ op.isDeletion = true ∧ o.state.list.isEmpty = true)

/-- Every successful run is told by its output. -/
theorem toldBy {c : Chain String A} {xs : List String} (hc : c.Holds xs) {ops : List Op}
    (hprint : print ∉ ops) {limit : Option Nat} {o : Outcome (RunState A) (Except CommandError Unit)}
    (hrun : run ops ⟨c, .ofLimit limit⟩ = .ok o) (hok : o.answer = .ok ()) :
    ToldBy c xs limit ops o.state.output.written := by
  have hlines : o.state.output.written.splitOn 10 = (reports xs ops).map Report.bytes ++ [[]] := by
    rw [(run_succeeded hc hrun hok).1, splitOn_outputAll hprint]
  refine ⟨hlines, fun before op behind hcut => ?_⟩
  rw [hcut] at hrun
  obtain ⟨o', hbefore, hok'⟩ := run_front hrun hok
  have hheld := (run_succeeded hc hbefore hok').2
  refine ⟨o', hbefore, hok', hheld.intact, observe_eq hheld op, isSome_report? _ op,
    fun r hr => ⟨?_, r.ofBytes?_bytes, ?_⟩⟩
  · have hreports : reports xs ops =
        reports xs before ++ r :: reports (op.after (afterAll xs before)) behind := by
      rw [hcut, reports_append, reports, Option.mem_def.1 hr, Option.toList_some, List.singleton_append]
    have hhere : (reports xs before).length = ((reports xs before).map Report.bytes).length :=
      (List.length_map Report.bytes).symm
    rw [hlines, hreports, List.map_append, List.map_cons, List.append_assoc, List.cons_append, hhere,
      List.getElem?_append_right (Nat.le_refl _), Nat.sub_self, List.getElem?_cons_zero]
  · have hmark : Text.utf8 emptyMark = (Report.removed none).bytes := rfl
    rw [hmark, Report.bytes_injective.eq_iff, hheld.isEmpty_eq, List.isEmpty_iff,
      ← report?_eq_removed_none, Option.mem_def.1 hr, Option.some.injEq]

/-- Without an operation that shows the whole list, a run can be read back from its output. It succeeds
if the output has no limit and there is room for the items. If it succeeds, each line tells what one
deletion removed or which length was seen. So runs of the same operations on two lists report the same if
their outputs are the same. -/
theorem run_readable {c : Chain String A} {xs : List String} (hc : c.Holds xs) {ops : List Op}
    (hprint : print ∉ ops) :
    (demandAll xs ops ≤ SlotMap.room A →
        ∃ o, run ops ⟨c, .ofLimit none⟩ = .ok o ∧ o.answer = .ok ()) ∧
      ∀ limit o, run ops ⟨c, .ofLimit limit⟩ = .ok o → o.answer = .ok () →
        ToldBy c xs limit ops o.state.output.written ∧
          ∀ (d : Chain String A) ys limit' o', d.Holds ys →
            run ops ⟨d, .ofLimit limit'⟩ = .ok o' → o'.answer = .ok () →
            o'.state.output.written = o.state.output.written → reports ys ops = reports xs ops := by
  refine ⟨fun hroom => ?_, fun limit o hrun hok => ?_⟩
  · have hs : RunState.StandsFor ⟨c, .ofLimit none⟩ ⟨xs, .ofLimit none⟩ := ⟨hc, rfl⟩
    obtain ⟨s', hrun, -⟩ := (run_spec hs ops).completes hroom
    refine ⟨_, hrun, ?_⟩
    rw [(plainRun_output ops _).2]
    rfl
  · refine ⟨toldBy hc hprint hrun hok, fun d ys limit' o' hd hrun' hok' hsame => ?_⟩
    have hlines := (toldBy hc hprint hrun hok).lines
    have hlines' := (toldBy hd hprint hrun' hok').lines
    rw [hsame, hlines] at hlines'
    have hbytes := List.append_cancel_right hlines'
    exact (Report.bytes_injective.list_map hbytes).symm

/-- An item that looks like the mark of an empty list, and one with a line feed, a quotation mark, a
backslash and an accent without a letter of its own. They are removed before a deletion that finds
nothing. -/
theorem run_readable_odd_items :
    ∃ (c : Chain String) (o : Outcome RunState (Except CommandError Unit)),
      ListStep.performAll [.append "(empty)", .append "a\n\"\\\u0301"] .empty =
          (c, .ok [.done, .done]) ∧
        c.Holds ["(empty)", "a\n\"\\\u0301"] ∧
        print ∉ [len, deleteTail, deleteHead, deleteHead] ∧
        demandAll ["(empty)", "a\n\"\\\u0301"] [len, deleteTail, deleteHead, deleteHead] ≤
          SlotMap.room Arena ∧
        run [len, deleteTail, deleteHead, deleteHead] ⟨c, .ofLimit none⟩ = .ok o ∧
        o.answer = .ok () ∧
        o.state.output.written.splitOn 10 =
          [Text.utf8 "2", Text.utf8 "\"a\\n\\\"\\\\\\u\x7b301\x7d\"", Text.utf8 "\"(empty)\"",
            Text.utf8 "(empty)", []] ∧
        (o.state.output.written.splitOn 10).filterMap Report.ofBytes? =
          [.counted 2, .removed (some "a\n\"\\\u0301"), .removed (some "(empty)"), .removed none] := by
  obtain ⟨c, hperform, -, hheld⟩ :=
    Chain.Reachable.of_steps (A := Arena) [.append "(empty)", .append "a\n\"\\\u0301"] (by decide)
  have hc : c.Holds ["(empty)", "a\n\"\\\u0301"] := hheld
  have hprint : print ∉ [len, deleteTail, deleteHead, deleteHead] := by decide
  have hroom : demandAll ["(empty)", "a\n\"\\\u0301"] [len, deleteTail, deleteHead, deleteHead] ≤
      SlotMap.room Arena := by decide
  obtain ⟨hsucceeds, hreads⟩ := run_readable hc hprint
  obtain ⟨o, hrun, hok⟩ := hsucceeds hroom
  have hlines := (hreads none o hrun hok).1.lines
  have hreports : reports ["(empty)", "a\n\"\\\u0301"] [len, deleteTail, deleteHead, deleteHead] =
      [.counted 2, .removed (some "a\n\"\\\u0301"), .removed (some "(empty)"), .removed none] := rfl
  rw [hreports] at hlines
  refine ⟨c, o, hperform, hc, hprint, hroom, hrun, hok, hlines.trans (by decide +kernel), ?_⟩
  have hnothing : Report.ofBytes? [] = none := by decide +kernel
  simp only [hlines, List.map_cons, List.map_nil, List.cons_append, List.nil_append,
    List.filterMap_cons, Report.ofBytes?_bytes, hnothing, List.filterMap_nil]

end Op

end SlotChain

import SlotChain.Proofs.Encoding
import SlotChain.Proofs.ScriptGrammar

/-!
# Scripts in files

What becomes of a script is decided in three steps. Its bytes have to be those of a text, all of them, so
that a wrong byte behind a line with a fault still goes first. A text is refused for its first fault. And a
text without fault is refused if it holds no operation, which is when each of its lines is empty or starts
with a number sign. So a script that is loaded holds an operation.
-/

namespace SlotChain.Script

/-- Without its margins every line of a text is empty or starts with a number sign. -/
def Barren (text : String) : Prop :=
  ∃ trimmed, HasLines text trimmed ∧ ∀ line ∈ trimmed, line = [] ∨ line.head? = some '#'

/-- How loading a text comes out. -/
inductive Outcome (text : String) : Except CommandError (List Op) → Prop
  /-- A line holds a fault. -/
  | refused {n : Nat} {source : OpError} (h : parse text = .error (.scriptLine n source)) :
    Outcome text (.error (.scriptLine n source))
  /-- No line holds anything. -/
  | barren (h : parse text = .ok []) : Outcome text (.error (.other "script contains no operation"))
  /-- There are operations, and no fault. -/
  | loaded {ops : List Op} (h : parse text = .ok ops) (hops : ops ≠ []) : Outcome text (.ok ops)

/-- The lines that are passed over are empty or start with a number sign. -/
theorem not_isEffective_iff {line : List Char} :
    ¬isEffective line = true ↔ line = [] ∨ line.head? = some '#' := by
  cases line with
  | nil => simp [isEffective]
  | cons c cs => simp [isEffective]

/-- A text is read as no operations if and only if it holds none. -/
theorem parse_eq_nil_iff {text : String} : parse text = .ok [] ↔ Barren text := by
  constructor
  · intro h
    rcases accepts_or_blames text with ⟨ops, haccepts⟩ | ⟨n, e, hblames⟩
    · have hops := haccepts.parse_eq.symm.trans h
      cases hops
      obtain ⟨trimmed, hlines, hreads⟩ := haccepts
      refine ⟨trimmed, hlines, fun line hline => not_isEffective_iff.1 ?_⟩
      exact List.filter_eq_nil_iff.1 (List.forall₂_nil_right_iff.1 hreads) line hline
    · rw [hblames.parse_eq rfl] at h
      cases h
  · rintro ⟨trimmed, hlines, hbarren⟩
    have hnone : trimmed.filter isEffective = [] :=
      List.filter_eq_nil_iff.2 fun line hline => not_isEffective_iff.2 (hbarren line hline)
    refine Accepts.parse_eq ⟨trimmed, hlines, ?_⟩
    rw [hnone]
    exact .nil

/-- A text is refused for the number and the fault of a line. -/
theorem exists_scriptLine {text : String} {e : CommandError} (h : parse text = .error e) :
    ∃ n source, e = .scriptLine n source := by
  rcases accepts_or_blames text with ⟨ops, haccepts⟩ | ⟨n, source, hblames⟩
  · rw [haccepts.parse_eq] at h
    cases h
  · rw [hblames.parse_eq rfl] at h
    cases h
    exact ⟨n, source, rfl⟩

/-- A text comes out in one way. -/
theorem Outcome.unique {text : String} {r r' : Except CommandError (List Op)} (h : Outcome text r)
    (h' : Outcome text r') : r = r' := by
  cases h <;> cases h' <;> simp_all

section

variable {bytes : ByteArray} {text : String}

/-- Bytes that are no text are refused without looking at what they hold. -/
theorem load_of_not_encodesText (h : ¬∃ cs, Text.EncodesText cs bytes.data.toList) :
    load (.ok bytes) = .error (.io .invalidText) := by
  rw [load, ofBytes, Text.fromUTF8?_eq_none_iff.2 h]

/-- What the bytes of a text are loaded as follows from what the text is read as. -/
theorem outcome_load (htext : Text.EncodesText text.toList bytes.data.toList) :
    Outcome text (load (.ok bytes)) := by
  simp only [load, ofBytes, Text.fromUTF8?_eq_some_iff.2 htext]
  cases hparse : parse text with
  | error e =>
    obtain ⟨n, source, rfl⟩ := exists_scriptLine hparse
    exact .refused hparse
  | ok ops =>
    cases ops with
    | nil => exact .barren hparse
    | cons op rest => exact .loaded hparse (List.cons_ne_nil op rest)

/-- The bytes of a text are loaded in the one way in which the text comes out. -/
theorem load_eq_iff (htext : Text.EncodesText text.toList bytes.data.toList)
    {r : Except CommandError (List Op)} : load (.ok bytes) = r ↔ Outcome text r := by
  constructor
  · rintro rfl
    exact outcome_load htext
  · exact (outcome_load htext).unique

/-- Bytes are refused as such if and only if they are no text. -/
theorem load_eq_io_iff {e : IoError} : load (.ok bytes) = .error (.io e) ↔
    e = .invalidText ∧ ¬∃ cs, Text.EncodesText cs bytes.data.toList := by
  constructor
  · intro h
    have hnone : ¬∃ cs, Text.EncodesText cs bytes.data.toList := by
      rintro ⟨cs, hcs⟩
      cases (load_eq_iff hcs.ofList).1 h
    rw [load_of_not_encodesText hnone] at h
    cases h
    exact ⟨rfl, hnone⟩
  · rintro ⟨rfl, hnone⟩
    exact load_of_not_encodesText hnone

end

/-- Loading the bytes of a file comes out in one of four ways. They are refused as bytes if and only if
they encode no text, that is, if they are wrong at some place up to which they encode one. The bytes of a
text are refused for its first fault if there is one, and for holding no operation if and only if each of
its lines is empty or starts with a number sign. In all other cases the operations of the text are loaded,
and there is at least one. -/
theorem load_exact (bytes : ByteArray) :
    (∀ e, load (.ok bytes) = .error (.io e) ↔
        e = .invalidText ∧ ¬∃ cs, Text.EncodesText cs bytes.data.toList) ∧
      ((∃ e, load (.ok bytes) = .error (.io e)) ↔
        ∃ cs front bad, Text.EncodesText cs front ∧ Text.Misencoded bad ∧
          bytes.data.toList = front ++ bad) ∧
      (∀ text : String, Text.EncodesText text.toList bytes.data.toList →
        (∀ e, parse text = .error e →
          load (.ok bytes) = .error e ∧ ∃ n source, e = .scriptLine n source) ∧
        (load (.ok bytes) = .error (.other "script contains no operation") ↔ Barren text) ∧
        (∀ ops, load (.ok bytes) = .ok ops ↔ parse text = .ok ops ∧ ops ≠ []) ∧
        ((∀ e, parse text ≠ .error e) → ¬Barren text → ∃ ops, load (.ok bytes) = .ok ops)) ∧
      load (.ok bytes) ≠ .ok [] := by
  refine ⟨fun e => load_eq_io_iff, ?_, fun text htext => ⟨fun e he => ?_, ?_, fun ops => ?_, ?_⟩, ?_⟩
  · rw [← Text.not_encodesText_iff]
    simp only [load_eq_io_iff, exists_eq_left]
  · obtain ⟨n, source, rfl⟩ := exists_scriptLine he
    exact ⟨(load_eq_iff htext).2 (.refused he), n, source, rfl⟩
  · rw [load_eq_iff htext, ← parse_eq_nil_iff]
    constructor
    · intro h
      cases h with
      | barren hparse => exact hparse
    · exact .barren
  · rw [load_eq_iff htext]
    constructor
    · intro h
      cases h with
      | loaded hparse hops => exact ⟨hparse, hops⟩
    · rintro ⟨hparse, hops⟩
      exact .loaded hparse hops
  · intro hfine hsome
    cases hparse : parse text with
    | error e => exact absurd hparse (hfine e)
    | ok ops =>
      refine ⟨ops, (load_eq_iff htext).2 (.loaded hparse ?_)⟩
      rintro rfl
      exact hsome (parse_eq_nil_iff.1 hparse)
  · intro h
    by_cases htext : ∃ cs, Text.EncodesText cs bytes.data.toList
    · obtain ⟨cs, hcs⟩ := htext
      cases (load_eq_iff hcs.ofList).1 h with
      | loaded _ hops => exact hops rfl
    · rw [load_of_not_encodesText htext] at h
      cases h

/-- An overlong form of the slash on the second line goes before the fault on the first, and so does a sign
of which the last byte is missing at the very end. Lines with nothing but white space or a comment are no
script. -/
theorem load_exact_fault_before_wrong_bytes :
    load (.ok [98, 97, 100, 10, 0xc0, 0xaf].toByteArray) = .error (.io .invalidText) ∧
      load (.ok [98, 97, 100, 10, 0xe2, 0x82].toByteArray) = .error (.io .invalidText) ∧
      load (.ok "len\nbad\n€".toByteArray) = .error (.scriptLine 2 (.unknownOp "bad")) ∧
      load (.ok "# €\r\n\u00a0\n".toByteArray) = .error (.other "script contains no operation") ∧
      load (.ok "# €\nappend €".toByteArray) = .ok [.append "€"] := by
  have hfront : Text.EncodesText "bad\n".toList [98, 97, 100, 10] :=
    Text.encodesText_iff.2 (by decide +kernel)
  have hslash : Text.Forms [0xc0, 0xaf] 0x2f :=
    .mk (.one (by decide) (by decide)) (List.forall_mem_singleton.2 (by decide)) rfl
  have hoverlong : Text.Misencoded ([0xc0, 0xaf] ++ []) := .overlong hslash (by decide)
  have htruncated : Text.Misencoded (0xe2 :: ([0x82] ++ [])) :=
    .truncated (.two (by decide) (by decide)) (by decide) (List.forall_mem_singleton.2 (by decide)) nofun
  have hwrong : ∀ {bad}, Text.Misencoded bad →
      load (.ok ([98, 97, 100, 10] ++ bad).toByteArray) = .error (.io .invalidText) := by
    intro bad hbad
    obtain ⟨hio, hplace, -⟩ := load_exact ([98, 97, 100, 10] ++ bad).toByteArray
    obtain ⟨e, he⟩ := hplace.2 ⟨_, _, _, hfront, hbad, List.toList_data_toByteArray⟩
    rw [he, ((hio e).1 he).1]
  obtain ⟨-, -, hrefused, -⟩ := load_exact "len\nbad\n€".toByteArray
  obtain ⟨-, -, hnone, -⟩ := load_exact "# €\r\n\u00a0\n".toByteArray
  obtain ⟨-, -, hloaded, -⟩ := load_exact "# €\nappend €".toByteArray
  have hbarren : Barren "# €\r\n\u00a0\n" := ⟨_, hasLines_iff.2 rfl, by decide +kernel⟩
  exact ⟨hwrong hoverlong, hwrong htruncated,
    ((hrefused _ (Text.encodesText_toByteArray _)).1 _ (by decide +kernel)).1,
    (hnone _ (Text.encodesText_toByteArray _)).2.1.2 hbarren,
    ((hloaded _ (Text.encodesText_toByteArray _)).2.2.1 _).2 (by decide +kernel)⟩

end SlotChain.Script

import SlotChain.Proofs.Lines
import SlotChain.Script
import Mathlib.Data.List.Forall2

/-!
# The grammar of scripts

What a script may look like is told here without saying how it is read: where its lines end, what is left
of a line without its margins, which lines hold nothing, and which operation or which fault any other line
holds. Every line that is not empty holds exactly one of them, so a script is read as the operations of
its lines, or is refused for the first line with a fault. Nothing behind that line is looked at.
-/

namespace SlotChain

namespace Text

/-! ### Lines, margins and words of a text -/

/-- A text is cut into lines. -/
inductive Cut : List Char → List (List Char) → Prop
  /-- An empty text has no line. -/
  | nothing : Cut [] []
  /-- The end of the text ends a line that is not empty. -/
  | last {line : List Char} (hfeed : '\n' ∉ line) (hne : line ≠ []) : Cut line [line]
  /-- A line feed ends a line. -/
  | feed {line rest : List Char} {ls : List (List Char)} (hfeed : '\n' ∉ line)
    (hreturn : line.getLast? ≠ some '\r') (h : Cut rest ls) : Cut (line ++ '\n' :: rest) (line :: ls)
  /-- A carriage return before the line feed belongs to the end of the line. -/
  | returnFeed {line rest : List Char} {ls : List (List Char)} (hfeed : '\n' ∉ line)
    (h : Cut rest ls) : Cut (line ++ '\r' :: '\n' :: rest) (line :: ls)

/-- A text consists of a core without white space at its ends and of margins of white space. -/
structure Trims (cs core : List Char) : Prop where
  /-- There is nothing else around the core. -/
  margins : ∃ left right, cs = left ++ (core ++ right) ∧ (∀ c ∈ left, isBlank c = true) ∧
    ∀ c ∈ right, isBlank c = true
  /-- The core has no margins of its own. -/
  unpadded : Unpadded core

/-- A text starts with a word, which ends at the first white space. -/
structure FirstWord (cs word rest : List Char) : Prop where
  /-- The rest of the text follows the word. -/
  eq : cs = word ++ rest
  /-- There is no white space in the word. -/
  noBlank : ∀ c ∈ word, isBlank c = false
  /-- The rest is empty, or starts with white space. -/
  blank : ∀ c ∈ rest.head?, isBlank c = true

/-- A line ends at a carriage return and a line feed. -/
theorem lines_append_returnFeed {line : List Char} (hfeed : '\n' ∉ line) (rest : List Char) :
    lines (line ++ '\r' :: '\n' :: rest) = line :: lines rest := by
  induction line with
  | nil => rfl
  | cons c cs ih =>
    rw [List.mem_cons, not_or] at hfeed
    have hpair : ∀ more, c = '\r' → cs ++ '\r' :: '\n' :: rest = '\n' :: more → False := by
      rintro more rfl hmore
      cases cs with
      | nil => cases hmore
      | cons d ds =>
        cases hmore
        exact hfeed.2 List.mem_cons_self
    rw [List.cons_append, lines_cons (Ne.symm hfeed.1) hpair, ih hfeed.2]

/-- A character in front of a text stands in front of its first line, unless it ends a line. -/
theorem Cut.cons {c : Char} {cs first : List Char} {more : List (List Char)} (hc : c ≠ '\n')
    (hpair : ∀ rest, c = '\r' → cs = '\n' :: rest → False) (h : Cut cs (first :: more)) :
    Cut (c :: cs) ((c :: first) :: more) := by
  have hnotMem : '\n' ∉ first → '\n' ∉ c :: first := by
    intro hfirst
    rw [List.mem_cons, not_or]
    exact ⟨hc.symm, hfirst⟩
  generalize hls : first :: more = ls at h
  cases h with
  | nothing => cases hls
  | last hfeed hne =>
    cases hls
    exact .last (hnotMem hfeed) (List.cons_ne_nil c _)
  | feed hfeed hreturn hrest =>
    cases hls
    refine .feed (hnotMem hfeed) ?_ hrest
    cases first with
    | nil =>
      intro hlast
      exact hpair _ (Option.some.inj hlast) rfl
    | cons d ds =>
      rw [List.getLast?_cons_cons]
      exact hreturn
  | returnFeed hfeed hrest =>
    cases hls
    exact .returnFeed (hnotMem hfeed) hrest

/-- Every text is cut in one way. -/
theorem cut_iff {cs : List Char} {ls : List (List Char)} : Cut cs ls ↔ lines cs = ls := by
  constructor
  · intro h
    induction h with
    | nothing => rfl
    | last hfeed hne => exact lines_of_no_lineFeed hfeed hne
    | feed hfeed hreturn _ ih => rw [lines_append_lineFeed hfeed hreturn, ih]
    | returnFeed hfeed _ ih => rw [lines_append_returnFeed hfeed, ih]
  · rintro rfl
    induction cs using lines.induct with
    | case1 => exact .nothing
    | case2 rest ih => exact .feed List.not_mem_nil (by decide) ih
    | case3 rest ih => exact .returnFeed List.not_mem_nil ih
    | case4 c rest hc hpair hcut ih =>
      rw [hcut] at ih
      rw [lines_cons hc hpair, hcut]
      -- only the empty text has no line
      cases ih
      exact .last (fun hmem => hc (List.mem_singleton.1 hmem).symm) (List.cons_ne_nil c [])
    | case5 c rest hc hpair first more hcut ih =>
      rw [hcut] at ih
      rw [lines_cons hc hpair, hcut]
      exact ih.cons hc hpair

/-- Every text has one core. -/
theorem trims_iff {cs core : List Char} : Trims cs core ↔ trim cs = core := by
  constructor
  · rintro ⟨⟨left, right, rfl, hleft, hright⟩, hcore⟩
    rw [trim, trimLeft, List.dropWhile_append_of_pos hleft, trimRight_eq_rdropWhile]
    cases core with
    | nil =>
      rw [List.nil_append, List.dropWhile_eq_nil_iff.2 hright]
      rfl
    | cons c cs =>
      have hfirst : ¬isBlank c = true := Bool.eq_false_iff.1 (hcore.first c rfl)
      have hright' : ∀ d ∈ right.reverse, isBlank d = true := fun d hd => hright d (List.mem_reverse.1 hd)
      rw [List.cons_append, List.dropWhile_cons_of_neg hfirst, ← List.cons_append, List.rdropWhile,
        List.reverse_append, List.dropWhile_append_of_pos hright', ← List.rdropWhile,
        List.rdropWhile_eq_self_iff]
      intro hne
      exact Bool.eq_false_iff.1 (hcore.last _ (List.getLast?_eq_getLast_of_ne_nil hne))
  · rintro rfl
    refine ⟨⟨cs.takeWhile isBlank, (cs.dropWhile isBlank).rtakeWhile isBlank, ?_, ?_, ?_⟩,
      unpadded_trim cs⟩
    · rw [trim, trimLeft, trimRight_eq_rdropWhile, List.rdropWhile_append_rtakeWhile,
        List.takeWhile_append_dropWhile]
    · exact fun c hc => List.mem_takeWhile_imp hc
    · exact fun c hc => List.mem_rtakeWhile_imp hc

/-- Every text starts with a word, which may be empty. -/
theorem exists_firstWord (cs : List Char) : ∃ word rest, FirstWord cs word rest := by
  refine ⟨cs.takeWhile fun c => !isBlank c, cs.dropWhile fun c => !isBlank c, ?_, ?_, ?_⟩
  · exact List.takeWhile_append_dropWhile.symm
  · intro c hc
    have hword := List.mem_takeWhile_imp hc
    rwa [Bool.not_eq_true'] at hword
  · intro c hc
    have hfirst := List.head?_dropWhile_not (fun c => !isBlank c) cs
    rw [Option.mem_def.1 hc] at hfirst
    have hblank : (!isBlank c) = false := hfirst
    rwa [Bool.not_eq_false'] at hblank

/-- Splitting a text at the first white space gives the first word. -/
theorem FirstWord.splitAtBlank_eq {cs word rest : List Char} (h : FirstWord cs word rest) :
    splitAtBlank cs = (word, if rest = [] then none else some rest.tail) := by
  rw [h.eq]
  cases rest with
  | nil =>
    rw [List.append_nil]
    exact splitAtBlank_of_word h.noBlank
  | cons b rest => exact splitAtBlank_append h.noBlank (h.blank b rfl) rest

end Text

namespace Script

/-! ### Operations and faults of a line -/

/-- The seven names, with what they stand for. -/
inductive Names : String → Verb → Prop
  | prepend : Names "prepend" (.insertion .prepend)
  | append : Names "append" (.insertion .append)
  | deleteHead : Names "delete-head" (.complete .deleteHead)
  | deleteTail : Names "delete-tail" (.complete .deleteTail)
  | len : Names "len" (.complete .len)
  | length : Names "length" (.complete .len)
  | print : Names "print" (.complete .print)

/-- A trimmed line holds an operation. -/
inductive Reads (line : List Char) : Op → Prop
  /-- The first word is the name of an operation that needs nothing more, whatever follows. -/
  | complete {word rest : List Char} {op : Op} (h : Text.FirstWord line word rest)
    (hname : Names (String.ofList word) (.complete op)) : Reads line op
  /-- The first word is the name of an insertion, and what follows it without margins is the value. -/
  | insertion {word rest value : List Char} {i : Insertion} (h : Text.FirstWord line word rest)
    (hname : Names (String.ofList word) (.insertion i)) (hvalue : Text.Trims rest value)
    (hne : value ≠ []) : Reads line (i.op (String.ofList value))

/-- A trimmed line holds a fault. -/
inductive Faulty (line : List Char) : OpError → Prop
  /-- The name of an insertion stands alone. -/
  | missingValue {word : List Char} {i : Insertion} (h : Text.FirstWord line word [])
    (hname : Names (String.ofList word) (.insertion i)) : Faulty line (.missingValue i)
  /-- The first word is none of the names. -/
  | unknownOp {word rest : List Char} (h : Text.FirstWord line word rest)
    (hnone : ∀ verb, ¬Names (String.ofList word) verb) : Faulty line (.unknownOp (String.ofList word))

theorem names_iff {word : String} {verb : Verb} : Names word verb ↔ Verb.ofName? word = some verb := by
  constructor
  · intro h
    cases h <;> rfl
  · intro h
    unfold Verb.ofName? at h
    split at h <;> cases h <;> constructor

theorem not_names_iff {word : String} :
    (∀ verb, ¬Names word verb) ↔ Verb.ofName? word = none := by
  rw [Option.eq_none_iff_forall_ne_some]
  exact forall_congr' fun verb => not_congr names_iff

section

variable {line : List Char}

/-- The operation of a line is read. -/
theorem Reads.readLine {op : Op} (h : Reads line op) : readLine line = .ok op := by
  cases h with
  | complete h hname =>
    rw [Script.readLine, h.splitAtBlank_eq]
    simp only [names_iff.1 hname]
  | @insertion word rest value i h hname hvalue hne =>
    have htrim := Text.trims_iff.1 hvalue
    have hrest : rest ≠ [] := by
      rintro rfl
      exact hne htrim.symm
    obtain ⟨b, more, rfl⟩ := List.exists_cons_of_ne_nil hrest
    have hmore : Text.trim (b :: more) = Text.trim more := by
      rw [Text.trim, Text.trimLeft, List.dropWhile_cons_of_pos (h.blank b rfl)]
      rfl
    rw [Script.readLine, h.splitAtBlank_eq]
    simp only [names_iff.1 hname, if_neg hrest, List.tail_cons, ← hmore, htrim]

/-- The fault of a line is found. -/
theorem Faulty.readLine {e : OpError} (h : Faulty line e) : readLine line = .error e := by
  cases h with
  | missingValue h hname =>
    rw [Script.readLine, h.splitAtBlank_eq]
    simp only [names_iff.1 hname, if_true]
  | unknownOp h hnone =>
    rw [Script.readLine, h.splitAtBlank_eq]
    simp only [not_names_iff.1 hnone]

/-- A trimmed line holds an operation or a fault. -/
theorem reads_or_faulty (hline : Text.Unpadded line) :
    (∃ op, Reads line op) ∨ ∃ e, Faulty line e := by
  obtain ⟨word, rest, h⟩ := Text.exists_firstWord line
  cases hverb : Verb.ofName? (String.ofList word) with
  | none => exact .inr ⟨_, .unknownOp h (not_names_iff.2 hverb)⟩
  | some verb =>
    have hname := names_iff.2 hverb
    cases verb with
    | complete op => exact .inl ⟨op, .complete h hname⟩
    | insertion i =>
      cases rest with
      | nil => exact .inr ⟨_, .missingValue h hname⟩
      | cons b rest =>
        have hb := h.blank b rfl
        -- The white space behind the name does not end the line, so there is more behind it.
        have hunpadded : Text.Unpadded (word ++ b :: rest) := h.eq ▸ hline
        obtain ⟨c, hmem, hc⟩ := hunpadded.exists_noBlank hb
        exact .inl ⟨_, .insertion h hname (Text.trims_iff.2 rfl)
          (Text.trim_ne_nil (List.mem_cons_of_mem b hmem) hc)⟩

end

/-! ### Operations and faults of a script -/

/-- The lines of a text without their margins. -/
def HasLines (text : String) (trimmed : List (List Char)) : Prop :=
  ∃ ls, Text.Cut text.toList ls ∧ List.Forall₂ Text.Trims ls trimmed

/-- The lines of a script that are not passed over hold operations, one a line and in this order. -/
def Accepts (text : String) (ops : List Op) : Prop :=
  ∃ trimmed, HasLines text trimmed ∧ List.Forall₂ Reads (trimmed.filter isEffective) ops

/-- Of some trimmed lines and a line behind them, that line is the first with a fault. -/
structure FirstFault (before : List (List Char)) (line : List Char) (e : OpError) : Prop where
  /-- Every line before it is passed over or holds an operation. -/
  before : ∀ l ∈ before, isEffective l = true → ∃ op, Reads l op
  /-- The line is not passed over. -/
  effective : isEffective line = true
  /-- The line holds the fault. -/
  fault : Faulty line e

/-- The first line of a script with a fault is the one with this number. -/
def Blames (text : String) (n : Nat) (e : OpError) : Prop :=
  ∃ before line behind, HasLines text (before ++ line :: behind) ∧ n = before.length + 1 ∧
    FirstFault before line e

/-- The lines without their margins are the lines, each without its margins. -/
theorem hasLines_iff {text : String} {trimmed : List (List Char)} :
    HasLines text trimmed ↔ (Text.lines text.toList).map Text.trim = trimmed := by
  have hforall : ∀ ls, List.Forall₂ Text.Trims ls trimmed ↔ ls.map Text.trim = trimmed := by
    intro ls
    rw [← List.forall₂_eq_eq_eq, List.forall₂_map_left_iff]
    exact ⟨fun h => h.imp fun _ _ => Text.trims_iff.1, fun h => h.imp fun _ _ => Text.trims_iff.2⟩
  constructor
  · rintro ⟨ls, hcut, htrims⟩
    rw [Text.cut_iff.1 hcut]
    exact (hforall ls).1 htrims
  · intro h
    exact ⟨_, Text.cut_iff.2 rfl, (hforall _).2 h⟩

/-- Lines that hold operations are read as these. -/
theorem readLines_of_reads {ls : List (List Char)} {ops : List Op}
    (h : List.Forall₂ Reads ((ls.map Text.trim).filter isEffective) ops) (n : Nat) :
    readLines n ls = .ok ops := by
  induction ls generalizing n ops with
  | nil =>
    cases h
    rfl
  | cons line rest ih =>
    rw [readLines]
    by_cases heffective : isEffective (Text.trim line) = true
    · rw [List.map_cons, List.filter_cons_of_pos heffective] at h
      cases h with
      | cons hop hrest =>
        simp only [heffective, if_true, hop.readLine, ih hrest (n + 1)]
        rfl
    · rw [List.map_cons, List.filter_cons_of_neg heffective] at h
      simp only [if_neg heffective, ih h (n + 1)]

/-- Lines are refused for the first with a fault, whatever stands behind it. -/
theorem readLines_of_firstFault {before : List (List Char)} {line : List Char} {e : OpError}
    (h : FirstFault (before.map Text.trim) (Text.trim line) e) (n : Nat) (behind : List (List Char)) :
    readLines n (before ++ line :: behind) = .error (.scriptLine (n + before.length) e) := by
  induction before generalizing n with
  | nil => simp only [List.nil_append, readLines, h.effective, if_true, h.fault.readLine,
      List.length_nil, Nat.add_zero]
  | cons first rest ih =>
    obtain ⟨hfirst, hrest⟩ := List.forall_mem_cons.1 h.before
    have hothers := ih ⟨hrest, h.effective, h.fault⟩ (n + 1)
    have hnumber : n + 1 + rest.length = n + (first :: rest).length := by
      rw [List.length_cons]
      omega
    rw [hnumber] at hothers
    rw [List.cons_append, readLines]
    by_cases heffective : isEffective (Text.trim first) = true
    · obtain ⟨op, hop⟩ := hfirst heffective
      simp only [heffective, if_true, hop.readLine, hothers]
      rfl
    · simp only [if_neg heffective, hothers]

/-- Lines hold operations, or there is a first with a fault. -/
theorem reads_or_firstFault (ls : List (List Char)) :
    (∃ ops, List.Forall₂ Reads ((ls.map Text.trim).filter isEffective) ops) ∨
      ∃ before line behind e, ls = before ++ line :: behind ∧
        FirstFault (before.map Text.trim) (Text.trim line) e := by
  induction ls with
  | nil => exact .inl ⟨[], .nil⟩
  | cons line rest ih =>
    by_cases heffective : isEffective (Text.trim line) = true
    · rcases reads_or_faulty (Text.unpadded_trim line) with ⟨op, hop⟩ | ⟨e, hfault⟩
      · rcases ih with ⟨ops, hops⟩ | ⟨before, line', behind, e, rfl, h⟩
        · left
          rw [List.map_cons, List.filter_cons_of_pos heffective]
          exact ⟨op :: ops, .cons hop hops⟩
        · refine .inr ⟨line :: before, line', behind, e, rfl, ?_, h.effective, h.fault⟩
          exact List.forall_mem_cons.2 ⟨fun _ => ⟨op, hop⟩, h.before⟩
      · exact .inr ⟨[], line, rest, e, rfl, List.forall_mem_nil _, heffective, hfault⟩
    · rcases ih with ⟨ops, hops⟩ | ⟨before, line', behind, e, rfl, h⟩
      · left
        rw [List.map_cons, List.filter_cons_of_neg heffective]
        exact ⟨ops, hops⟩
      · refine .inr ⟨line :: before, line', behind, e, rfl, ?_, h.effective, h.fault⟩
        exact List.forall_mem_cons.2 ⟨fun h' => absurd h' heffective, h.before⟩

/-- A script is read as the operations of its lines. -/
theorem Accepts.parse_eq {text : String} {ops : List Op} (h : Accepts text ops) :
    parse text = .ok ops := by
  obtain ⟨trimmed, hlines, hreads⟩ := h
  rw [← hasLines_iff.1 hlines] at hreads
  exact readLines_of_reads hreads 1

/-- A script is refused for its first fault. So is every text with the same lines up to there. -/
theorem Blames.parse_eq {text other : String} {n : Nat} {e : OpError} (h : Blames text n e)
    (hsame : (Text.lines other.toList).take n = (Text.lines text.toList).take n) :
    parse other = .error (.scriptLine n e) := by
  obtain ⟨before, line, behind, hlines, rfl, hfirst⟩ := h
  obtain ⟨before, others, hcut, rfl, hothers⟩ := List.map_eq_append_iff.1 (hasLines_iff.1 hlines)
  obtain ⟨line, behind, rfl, rfl, rfl⟩ := List.map_eq_cons_iff.1 hothers
  have htake : (Text.lines other.toList).take (before.length + 1) = before ++ [line] := by
    rw [List.length_map] at hsame
    rw [hsame, hcut, List.take_length_add_append, List.take_succ_cons, List.take_zero]
  have hother : Text.lines other.toList =
      before ++ line :: (Text.lines other.toList).drop (before.length + 1) := by
    calc
      Text.lines other.toList
        = (Text.lines other.toList).take (before.length + 1) ++
            (Text.lines other.toList).drop (before.length + 1) := (List.take_append_drop _ _).symm
      _ = before ++ line :: (Text.lines other.toList).drop (before.length + 1) := by
        rw [htake, List.append_assoc, List.singleton_append]
  rw [parse, hother, readLines_of_firstFault hfirst, List.length_map, Nat.add_comm 1]

/-- A script holds operations, or a line of it is to blame. -/
theorem accepts_or_blames (text : String) : (∃ ops, Accepts text ops) ∨ ∃ n e, Blames text n e := by
  rcases reads_or_firstFault (Text.lines text.toList) with
    ⟨ops, hops⟩ | ⟨before, line, behind, e, hcut, h⟩
  · exact .inl ⟨ops, _, hasLines_iff.2 rfl, hops⟩
  · refine .inr ⟨_, e, before.map Text.trim, Text.trim line, behind.map Text.trim, ?_, rfl, h⟩
    rw [hasLines_iff, hcut, List.map_append, List.map_cons]

/-- A script is read as operations if and only if its lines hold these, one on each line that is not
passed over. Otherwise it is refused for the number and the fault of the first line that holds a fault, and
the report of the refusal tells the number and then the fault, once. No text with the same lines up to that
one is read in another way. -/
theorem parse_exact (text : String) :
    (∀ ops, parse text = .ok ops ↔ Accepts text ops) ∧
      (∀ e, parse text = .error e ↔ ∃ n source, e = .scriptLine n source ∧ Blames text n source) ∧
      ∀ n source, parse text = .error (.scriptLine n source) →
        (CommandError.scriptLine n source).chain =
            "script line " ++ Text.natural n ++ ": " ++ source.message ∧
          ∀ other ls ls', Text.Cut text.toList ls → Text.Cut other.toList ls' →
            ls'.take n = ls.take n → parse other = parse text := by
  have hrefused : ∀ e, parse text = .error e →
      ∃ n source, e = .scriptLine n source ∧ Blames text n source := by
    intro e h
    rcases accepts_or_blames text with ⟨ops, haccepts⟩ | ⟨n, source, hblames⟩
    · rw [haccepts.parse_eq] at h
      cases h
    · rw [hblames.parse_eq rfl] at h
      cases h
      exact ⟨n, source, rfl, hblames⟩
  refine ⟨fun ops => ⟨fun h => ?_, fun h => h.parse_eq⟩, fun e => ⟨hrefused e, ?_⟩, ?_⟩
  · rcases accepts_or_blames text with ⟨ops', haccepts⟩ | ⟨n, source, hblames⟩
    · rw [haccepts.parse_eq] at h
      cases h
      exact haccepts
    · rw [hblames.parse_eq rfl] at h
      cases h
  · rintro ⟨n, source, rfl, hblames⟩
    exact hblames.parse_eq rfl
  · intro n source h
    refine ⟨?_, fun other ls ls' hcut hcut' hsame => ?_⟩
    · rw [CommandError.chain, CommandError.messages, CommandError.causes, List.map_singleton,
        String.intercalate_cons_cons, String.intercalate_singleton, CommandError.message]
    · obtain ⟨n', source', heq, hblames⟩ := hrefused _ h
      cases heq
      rw [← Text.cut_iff.1 hcut, ← Text.cut_iff.1 hcut'] at hsame
      rw [h, hblames.parse_eq hsame]

/-- The insertion on the fourth line is followed by white space only. The comment and the empty line before
it count as lines, and it does not matter what stands behind it. -/
theorem parse_exact_blank_value :
    parse "# note\r\n\n len\u00a0now\n append \t\nbogus" = .error (.scriptLine 4 (.missingValue .append)) ∧
      Blames "# note\r\n\n len\u00a0now\n append \t\nbogus" 4 (.missingValue .append) ∧
      (CommandError.scriptLine 4 (.missingValue .append)).chain =
        "script line 4: operation `append` requires a value" ∧
      Accepts "# note\r\n\n len\u00a0now\n" [.len] ∧
      parse "# note\n\r\n len\u00a0now\r\n append \t" =
        parse "# note\r\n\n len\u00a0now\n append \t\nbogus" := by
  have hparse : parse "# note\r\n\n len\u00a0now\n append \t\nbogus" =
      .error (.scriptLine 4 (.missingValue .append)) := by decide +kernel
  obtain ⟨-, hblames, hrefused⟩ := parse_exact "# note\r\n\n len\u00a0now\n append \t\nbogus"
  obtain ⟨n, source, heq, hfirst⟩ := (hblames _).1 hparse
  cases heq
  obtain ⟨hchain, hlocal⟩ := hrefused 4 (.missingValue .append) hparse
  have hgood : parse "# note\r\n\n len\u00a0now\n" = .ok [.len] := by decide +kernel
  refine ⟨hparse, hfirst, hchain.trans (by decide +kernel), ((parse_exact _).1 _).1 hgood, ?_⟩
  exact hlocal _ _ _ (Text.cut_iff.2 rfl) (Text.cut_iff.2 rfl) (by decide +kernel)

end Script

end SlotChain

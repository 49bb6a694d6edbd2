import SlotChain.Program
import SlotChain.Proofs.Numerals
import SlotChain.Proofs.WordGrammar

/-!
# Operations on the command line

The words of operations may be given as they are as long as none of them starts with a dash, and behind two
dashes whatever they are. The capacity may be given at any one place among them, in one word or in two, and
the words of the operations are the same wherever it stands. Behind two dashes every list of operations can
be passed on, and it arrives as it is; and operations never come from the command line and a script at once.
-/

namespace SlotChain.CommandLine

/-! ### What words look like -/

/-- A word that does not start like an option. -/
def Undashed (word : String) : Prop := word.toList.head? ≠ some '-'
deriving Decidable

/-- A word without a dash in front is plain, the empty one included. -/
theorem Undashed.ofString_eq {word : String} (h : Undashed word) : Word.ofString word = .plain := by
  have hdash : ∀ cs, word.toList ≠ '-' :: cs := fun cs heq => h (congrArg List.head? heq)
  unfold Word.ofString
  split
  all_goals first | rfl | exact absurd ‹_› (hdash _)

/-- The notation of a number does not start like an option. -/
theorem undashed_natural (n : Nat) : Undashed (Text.natural n) := by
  rw [Undashed, Text.natural, String.toList_ofList]
  intro h
  have hdigit := Text.isDigit_of_mem_toDigits (List.mem_of_mem_head? (Option.mem_def.2 h))
  exact absurd hdigit (by decide)

/-- A text is cut at its first equals sign. -/
theorem splitAtEquals_append {name : List Char} (h : '=' ∉ name) (value : List Char) :
    splitAtEquals (name ++ '=' :: value) = (name, some value) := by
  induction name with
  | nil => rfl
  | cons c cs ih =>
    rw [List.mem_cons, not_or] at h
    rw [List.cons_append, splitAtEquals, if_neg (Ne.symm h.1), ih h.2]

/-- The capacity and its value in one word. -/
theorem ofString_attached (value : String) :
    Word.ofString ("--capacity=" ++ value) = .long "capacity" (some value) := by
  have hcut : splitAtEquals ("capacity".toList ++ '=' :: value.toList) =
      ("capacity".toList, some value.toList) := splitAtEquals_append (by decide) _
  have htext : ("--capacity=" ++ value).toList =
      '-' :: '-' :: 'c' :: ("apacity".toList ++ '=' :: value.toList) := by
    rw [String.toList_append]
    rfl
  have hvalue : (some value.toList).map String.ofList = some value :=
    congrArg some String.ofList_toList
  unfold Word.ofString
  rw [htext]
  simp only [← hvalue]
  exact congrArg (fun cut => Word.long (String.ofList cut.1) (cut.2.map String.ofList)) hcut

/-- Two dashes alone. -/
theorem ofString_dashes : Word.ofString "--" = .escape := rfl

/-- The capacity without a value. -/
theorem ofString_capacity : Word.ofString "--capacity" = .long "capacity" none := by decide +kernel

namespace Progress

variable {p q : Progress}

/-! ### One word -/

/-- A long option that is accepted leaves the rest to the progress made with it. -/
theorem readWords_long {word name : String} {value : Option String}
    (hword : Word.ofString word = .long name value) (h : p.addLong name value = .ok q) (rest : List String) :
    p.readWords (word :: rest) = q.readWords rest := by
  rw [readWords, hword]
  change (p.addLong name value >>= fun q => q.readWords rest) = _
  rw [h]
  rfl

/-- A word without a dash that is accepted leaves the rest to the progress made with it. -/
theorem readWords_undashed {word : String} (hword : Undashed word) (h : p.addPlain word = .ok q)
    (rest : List String) : p.readWords (word :: rest) = q.readWords rest := by
  rw [readWords, hword.ofString_eq]
  change (p.addPlain word >>= fun q => q.readWords rest) = _
  rw [h]
  rfl

/-! ### Judging an option -/

/-- With nothing pending there is nothing to judge. -/
theorem settle_of_pending (h : p.pending = none) : p.settle = .ok p := by
  rw [settle, h]

/-- Entering a value leaves pending what was. -/
theorem pending_of_enter {s : Setting} {value : String} (h : p.enter s value = .ok q) :
    q.pending = p.pending := by
  unfold enter at h
  repeat' split at h
  all_goals cases h
  all_goals rfl

/-- What has been judged has nothing pending. -/
theorem pending_of_settle (h : p.settle = .ok q) : q.pending = none := by
  unfold settle at h
  split at h
  · rename_i hnone
    cases h
    exact hnone
  · cases h
  · exact pending_of_enter h

/-- Once the option met last has been judged, judging again changes nothing. -/
theorem settle_of_settle (h : p.settle = .ok q) : q.settle = p.settle := by
  rw [settle_of_pending (pending_of_settle h), h]

/-- An option that can be judged does not wait for a value. -/
theorem addPlain_of_settle (h : p.settle = .ok q) (word : String) :
    p.addPlain word = .ok (q.addOps [word]) := by
  unfold addPlain
  split
  · rename_i hwaits
    rw [settle, hwaits] at h
    cases h
  · rw [h]
    rfl

/-- It makes no difference to the words that follow whether the option met last has been judged. -/
theorem readWords_of_settle (h : p.settle = .ok q) (words : List String) :
    p.readWords words = q.readWords words := by
  have hq := settle_of_settle h
  -- Whatever is accepted next judges the option first, and a mistake is the same with either progress.
  have hplain : ∀ word, p.addPlain word = q.addPlain word := fun word => by
    rw [addPlain_of_settle h, addPlain_of_settle (hq.trans h)]
  have hlong : ∀ name value, p.addLong name value = q.addLong name value := fun name value => by
    simp only [addLong, addSetting, stopWith, hq]
  have hshort : ∀ letter, p.addShort letter = q.addShort letter := fun letter => by
    simp only [addShort, stopWith, hq]
  cases words with
  | nil => rw [readWords, readWords, hq]
  | cons word rest => simp only [readWords, hq, hlong, hshort, hplain]

/-! ### Words of operations -/

/-- Adding no words changes nothing. -/
theorem addOps_nil (p : Progress) : p.addOps [] = p := by
  simp [addOps]

/-- Words are added one after the other. -/
theorem addOps_addOps (p : Progress) (words more : List String) :
    (p.addOps words).addOps more = p.addOps (words ++ more) := by
  have hops : p.ops ++ words ++ more = p.ops ++ (words ++ more) := by
    apply Array.toList_inj.1
    simp
  have hfirst : (p.opsFirst || p.script.isNone && !words.isEmpty || p.script.isNone && !more.isEmpty) =
      (p.opsFirst || p.script.isNone && !(words ++ more).isEmpty) := by
    rw [Bool.or_assoc, ← Bool.and_or_distrib_left]
    cases words <;> rfl
  simp only [addOps, hops, hfirst]

/-- Words without a dash in front are added in order. -/
theorem readWords_append (hp : p.pending = none) {words : List String}
    (hwords : ∀ w ∈ words, Undashed w) (rest : List String) :
    p.readWords (words ++ rest) = (p.addOps words).readWords rest := by
  induction words generalizing p with
  | nil => rw [List.nil_append, addOps_nil]
  | cons word words ih =>
    obtain ⟨hword, hwords⟩ := List.forall_mem_cons.1 hwords
    have hplain := addPlain_of_settle (settle_of_pending hp) word
    calc
      p.readWords (word :: words ++ rest)
        = (p.addOps [word]).readWords (words ++ rest) := readWords_undashed hword hplain _
      _ = ((p.addOps [word]).addOps words).readWords rest := ih hp hwords
      _ = (p.addOps (word :: words)).readWords rest := by
        rw [addOps_addOps, List.singleton_append]

/-- Behind two dashes all words are added. -/
theorem readWords_dashes (hp : p.pending = none) (rest : List String) :
    p.readWords ("--" :: rest) = .ok (p.addOps rest) := by
  rw [readWords, ofString_dashes, settle_of_pending hp]
  rfl

/-! ### The capacity -/

/-- The first capacity given is entered as it is. -/
theorem enter_capacity (hp : p.capacity = none) (n : UInt64) :
    p.enter .capacity (Text.natural n.toNat) = .ok { p with capacity := some n } := by
  have hread := Text.readWord_natural (n := n.toNat) n.toNat_lt
  simp only [enter, hp, hread, Option.isSome_none, Bool.false_eq_true, if_false, UInt64.ofNat_toNat]

end Progress

/-- Words that give the capacity, or leave it out. -/
inductive Gives : List String → Option UInt64 → Prop
  /-- No word at all. -/
  | absent : Gives [] none
  /-- The number stands behind an equals sign. -/
  | attached (n : UInt64) : Gives ["--capacity=" ++ Text.natural n.toNat] (some n)
  /-- The number stands in a word of its own. -/
  | detached (n : UInt64) : Gives ["--capacity", Text.natural n.toNat] (some n)

/-- Words that are all added to those of the operations. -/
inductive Operands : List String → List String → Prop
  /-- None of the words starts with a dash. -/
  | undashed {words : List String} (h : ∀ w ∈ words, Undashed w) : Operands words words
  /-- Two dashes stand alone in front, and do not count. -/
  | dashes (words : List String) : Operands ("--" :: words) words

namespace Progress

variable {p : Progress}

/-- Wherever the capacity is given, reading goes on with it behind these words. -/
theorem readWords_gives (hpending : p.pending = none) (hcapacity : p.capacity = none)
    {setting : List String} {given : Option UInt64} (h : Gives setting given) (rest : List String) :
    p.readWords (setting ++ rest) = { p with capacity := given }.readWords rest := by
  have hsettle := settle_of_pending hpending
  cases h with
  | absent => rw [List.nil_append, ← hcapacity]
  | attached n =>
    have hlong : p.addLong "capacity" (some (Text.natural n.toNat)) =
        .ok { p with capacity := some n } := by
      rw [addLong, addSetting, hsettle]
      exact enter_capacity hcapacity n
    exact readWords_long (ofString_attached _) hlong rest
  | detached n =>
    have hlong : p.addLong "capacity" none = .ok { p with pending := some (.capacity, none) } := by
      rw [addLong, addSetting, hsettle]
      rfl
    -- The number waits to be judged, which the next word or the end does, whatever that is.
    have hjudged : { p with pending := some (.capacity, some (Text.natural n.toNat)) }.settle =
        .ok { p with capacity := some n } := by
      have hp : { p with pending := none } = p := by rw [← hpending]
      rw [settle, hp]
      exact enter_capacity hcapacity n
    rw [List.cons_append, List.singleton_append]
    calc
      p.readWords ("--capacity" :: Text.natural n.toNat :: rest)
        = { p with pending := some (.capacity, none) }.readWords (Text.natural n.toNat :: rest) :=
          readWords_long ofString_capacity hlong _
      _ = { p with pending := some (.capacity, some (Text.natural n.toNat)) }.readWords rest :=
          readWords_undashed (undashed_natural _) rfl rest
      _ = _ := readWords_of_settle hjudged rest

/-- Words that are all words of operations are read to the end. -/
theorem readWords_operands (hp : p.pending = none) {tail words : List String}
    (h : Operands tail words) : p.readWords tail = .ok (p.addOps words) := by
  cases h with
  | undashed hwords =>
    have hread := readWords_append hp hwords []
    rw [List.append_nil] at hread
    rw [hread, readWords]
    exact settle_of_pending hp
  | dashes => exact readWords_dashes hp words

end Progress

/-- The capacity may stand anywhere among the words of operations. -/
theorem parse_gives {front setting tail words : List String} {given : Option UInt64}
    (hfront : ∀ w ∈ front, Undashed w) (hgives : Gives setting given) (htail : Operands tail words) :
    parse (front ++ (setting ++ tail)) = .ok ⟨given.getD 0, none, front ++ words⟩ := by
  let start : Progress := {}
  have hread : start.readWords (front ++ (setting ++ tail)) =
      .ok ({ start.addOps front with capacity := given }.addOps words) := by
    rw [Progress.readWords_append rfl hfront, Progress.readWords_gives rfl rfl hgives,
      Progress.readWords_operands rfl htail]
  have hops : ((#[] : Array String) ++ front ++ words).toList = front ++ words := by simp
  calc
    parse (front ++ (setting ++ tail))
      = ({ start.addOps front with capacity := given }.addOps words).finish := by
        rw [parse, hread]
        rfl
    _ = .ok ⟨given.getD 0, none, ((#[] : Array String) ++ front ++ words).toList⟩ := rfl
    _ = .ok ⟨given.getD 0, none, front ++ words⟩ := by rw [hops]

/-- Arguments that are accepted do not come with a script and words of operations at once. -/
theorem not_script_and_ops {argv : List String} {a : Arguments} (h : parse argv = .ok a) :
    ¬(a.script.isSome ∧ a.ops ≠ []) := by
  rintro ⟨hscript, hops⟩
  rw [parse] at h
  cases hread : Progress.readWords {} argv with
  | error stop =>
    rw [hread] at h
    cases h
  | ok p =>
    rw [hread] at h
    change p.finish = .ok a at h
    rw [Progress.finish] at h
    split at h
    · cases h
    · rename_i hnot
      cases h
      rw [hscript, Bool.true_and, Bool.not_eq_true, Bool.not_eq_false', Array.isEmpty_iff] at hnot
      exact hops (congrArg Array.toList hnot)

/-- Every list of operations can be passed on behind two dashes, whatever its values are, together with
every capacity: the arguments are accepted, and the operations are read from their words as they were.
Words without a dash in front are words of operations in the order in which they stand, and the capacity
may be given at any one place among them, in one word or in two, or be left out. And no arguments that are
accepted hold a script and words of operations. -/
theorem parse_passes_on :
    (∀ (ops : List Op) (n : UInt64),
      parse ("--capacity" :: Text.natural n.toNat :: "--" :: ops.flatMap Op.words) =
          .ok ⟨n, none, ops.flatMap Op.words⟩ ∧
        Op.ofWords (ops.flatMap Op.words) = .ok ops ∧
        (ops ≠ [] → ∀ readFile,
          Program.operations ⟨n, none, ops.flatMap Op.words⟩ readFile = .ok ops)) ∧
      (∀ front setting back given, (∀ w ∈ front ++ back, Undashed w) → Gives setting given →
        parse (front ++ (setting ++ back)) = .ok ⟨given.getD 0, none, front ++ back⟩) ∧
      ∀ argv a, parse argv = .ok a → ¬(a.script.isSome ∧ a.ops ≠ []) := by
  refine ⟨fun ops n => ?_, fun front setting back given hwords hgives => ?_,
    fun argv a => not_script_and_ops⟩
  · have hread : Op.ofWords (ops.flatMap Op.words) = .ok ops := (Words.spells_words ops).ofWords_eq
    refine ⟨parse_gives (List.forall_mem_nil _) (.detached n) (.dashes _), hread, ?_⟩
    intro hops readFile
    have hsome : ops.flatMap Op.words ≠ [] := by
      intro hnone
      rw [hnone] at hread
      cases hread
      exact hops rfl
    rw [Program.operations, if_neg hsome, hread]
    rfl
  · obtain ⟨hfront, hback⟩ := List.forall_mem_append.1 hwords
    exact parse_gives hfront hgives (.undashed hback)

-- The capacity may even stand between an insertion and the value of that insertion.
example : parse ["append", "--capacity", "7", "len"] = .ok ⟨7, none, ["append", "len"]⟩ := by
  decide +kernel

/-- Behind two dashes values may look like options, or be empty. In front of them the capacity may come
between an insertion and its value. A script is accepted with two dashes that nothing follows. -/
theorem parse_passes_on_hyphens :
    parse ["--capacity", "18446744073709551615", "--", "prepend", "--script", "append", "", "append",
        "--", "delete-head"] =
      .ok ⟨18446744073709551615, none,
        ["prepend", "--script", "append", "", "append", "--", "delete-head"]⟩ ∧
      Program.operations ⟨18446744073709551615, none,
          ["prepend", "--script", "append", "", "append", "--", "delete-head"]⟩
        (fun _ => .error .notFound) =
        .ok [.prepend "--script", .append "", .append "--", .deleteHead] ∧
      parse ["append", "--capacity=0", "", "length"] = .ok ⟨0, none, ["append", "", "length"]⟩ ∧
      parse ["append", "", "length"] = .ok ⟨0, none, ["append", "", "length"]⟩ ∧
      parse ["--script", "all", "--"] = .ok ⟨0, some "all", []⟩ ∧
      ¬((some "all").isSome ∧ ([] : List String) ≠ []) := by
  have hdigits : Text.natural (18446744073709551615 : UInt64).toNat = "18446744073709551615" := by
    decide +kernel
  have hscript : parse ["--script", "all", "--"] = .ok ⟨0, some "all", []⟩ := by decide +kernel
  have hundashed : ∀ w ∈ ["append"] ++ ["", "length"], Undashed w := by decide
  obtain ⟨hbehind, hamong, hnotboth⟩ := parse_passes_on
  obtain ⟨hparse, -, hops⟩ := hbehind [.prepend "--script", .append "", .append "--", .deleteHead]
    18446744073709551615
  rw [hdigits] at hparse
  exact ⟨hparse, hops (by decide) _, hamong ["append"] _ ["", "length"] _ hundashed (.attached 0),
    hamong ["append"] [] ["", "length"] _ hundashed .absent, hscript, hnotboth _ _ hscript⟩

end SlotChain.CommandLine

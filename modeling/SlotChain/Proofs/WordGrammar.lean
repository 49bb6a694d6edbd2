import SlotChain.Proofs.ScriptGrammar
import SlotChain.Proofs.ScriptText

/-!
# The grammar of words

Words that follow one another spell operations if they are the words of these operations put together,
where the length may go by its longer name. Whether a word names an operation or is a value depends on
the words before it, and still no two lists of operations are spelled alike. Words that spell nothing
are refused for one of them: it stands behind the longest beginning that spells operations, and it is
either no name at all or the name of an insertion with nothing behind it.
-/

namespace SlotChain

namespace Words

/-- The words of one operation. -/
inductive Spelled : Op → List String → Prop
  /-- The words in which the operation is passed on. -/
  | own (op : Op) : Spelled op op.words
  /-- The longer name of the length. -/
  | length : Spelled .len ["length"]

/-- Words are those of some operations, put together in order. -/
def Spells (words : List String) (ops : List Op) : Prop :=
  ∃ parts, List.Forall₂ Spelled ops parts ∧ words = parts.flatten

/-- A word where an operation should start, with the words behind it, is at fault. -/
inductive Offends (word : String) (behind : List String) : OpError → Prop
  /-- The word is none of the names. -/
  | unknownOp (hnone : ∀ verb, ¬Script.Names word verb) : Offends word behind (.unknownOp word)
  /-- The word is the name of an insertion, and the very last one. -/
  | missingValue {i : Insertion} (hname : word = i.name) (hlast : behind = []) :
    Offends word behind (.missingValue i)

/-- Words are refused for the one that stands between two parts of them. -/
structure Blames (words front : List String) (word : String) (behind : List String) (e : OpError) :
    Prop where
  /-- The word stands between these parts. -/
  cut : words = front ++ word :: behind
  /-- The words before it spell operations. -/
  spells : ∃ ops, Spells front ops
  /-- No longer beginning does. -/
  longest : ∀ other ops, other <+: words → Spells other ops → other.length ≤ front.length
  /-- The word is at fault. -/
  offends : Offends word behind e

/-! ### Reading words that spell operations -/

/-- The words of one operation come before those of the others. -/
theorem Spells.cons {op : Op} {part rest : List String} {ops : List Op} (hop : Spelled op part)
    (h : Spells rest ops) : Spells (part ++ rest) (op :: ops) := by
  obtain ⟨parts, hparts, rfl⟩ := h
  exact ⟨part :: parts, .cons hop hparts, rfl⟩

theorem spells_nil : Spells [] [] := ⟨[], .nil, rfl⟩

/-- The name of an operation that needs nothing more spells it. -/
theorem spelled_of_complete {word : String} {op : Op} (h : Script.Names word (.complete op)) :
    Spelled op [word] := by
  cases h with
  | length => exact .length
  | deleteHead => exact .own .deleteHead
  | deleteTail => exact .own .deleteTail
  | len => exact .own .len
  | print => exact .own .print

/-- The name of an insertion and any value spell it. -/
theorem spelled_of_insertion {word : String} {i : Insertion} (h : Script.Names word (.insertion i))
    (value : String) : Spelled (i.op value) [word, value] := by
  cases h with
  | prepend => exact .own (.prepend value)
  | append => exact .own (.append value)

/-- An insertion goes by one name. -/
theorem eq_name_of_insertion {word : String} {i : Insertion} (h : Script.Names word (.insertion i)) :
    word = i.name := by
  cases h <;> rfl

/-- Operations are spelled by their own words. -/
theorem spells_words (ops : List Op) : Spells (ops.flatMap Op.words) ops := by
  induction ops with
  | nil => exact spells_nil
  | cons op rest ih => exact ih.cons (.own op)

/-- The words of an operation are read as the operation, whatever follows. -/
theorem Spelled.ofWords_append {op : Op} {part : List String} (h : Spelled op part)
    (rest : List String) : Op.ofWords (part ++ rest) = (Op.ofWords rest).map (op :: ·) := by
  cases h with
  | length => rfl
  | own =>
    rcases op.complete_or_insertion with ⟨hvalue, -, hverb⟩ | ⟨i, value, rfl⟩
    · have hwords : op.words ++ rest = op.name :: rest := by
        rw [Op.words, hvalue]
        rfl
      rw [hwords, Op.ofWords.eq_3 _ _ _ hverb]
    · have hverb := i.ofName?_name_op value
      have hwords : (i.op value).words ++ rest = (i.op value).name :: value :: rest := by
        rw [Op.words, i.value?_op]
        rfl
      rw [hwords, Op.ofWords.eq_5 _ _ _ _ hverb]

/-- Words that spell operations are read as these, whatever follows. -/
theorem Spells.ofWords_append {front : List String} {ops : List Op} (h : Spells front ops)
    (rest : List String) : Op.ofWords (front ++ rest) = (Op.ofWords rest).map (ops ++ ·) := by
  obtain ⟨parts, hparts, rfl⟩ := h
  induction hparts with
  | nil =>
    rw [List.flatten_nil, List.nil_append]
    cases Op.ofWords rest <;> rfl
  | cons hop _ ih =>
    rw [List.flatten_cons, List.append_assoc, hop.ofWords_append, ih]
    cases Op.ofWords rest <;> rfl

/-- Words that spell operations are read as these. -/
theorem Spells.ofWords_eq {words : List String} {ops : List Op} (h : Spells words ops) :
    Op.ofWords words = .ok ops := by
  have hread := h.ofWords_append []
  rw [List.append_nil] at hread
  rw [hread, Op.ofWords]
  exact congrArg Except.ok (List.append_nil ops)

/-! ### Reading words that spell nothing -/

/-- A word at fault is refused where an operation should start. -/
theorem Offends.ofWords_cons {word : String} {behind : List String} {e : OpError}
    (h : Offends word behind e) : Op.ofWords (word :: behind) = .error e := by
  cases h with
  | unknownOp hnone =>
    exact Op.ofWords.eq_2 _ _ (Script.not_names_iff.1 hnone)
  | @missingValue i hname hlast =>
    subst hname hlast
    cases i <;> rfl

/-- A word at fault stays so if fewer words are behind it. -/
theorem Offends.of_prefix {word : String} {behind fewer : List String} {e : OpError}
    (h : Offends word behind e) (hfewer : fewer <+: behind) : Offends word fewer e := by
  cases h with
  | unknownOp hnone => exact .unknownOp hnone
  | missingValue hname hlast =>
    subst hlast
    exact .missingValue hname (List.prefix_nil.1 hfewer)

/-- A word at fault behind words that spell operations decides about all of them. -/
theorem Offends.ofWords_append {front : List String} {ops : List Op} {word : String}
    {behind : List String} {e : OpError} (hfront : Spells front ops) (h : Offends word behind e) :
    Op.ofWords (front ++ word :: behind) = .error e := by
  rw [hfront.ofWords_append, h.ofWords_cons]
  rfl

/-- No beginning that spells operations goes up to a word at fault. -/
theorem Offends.blames {front : List String} {ops : List Op} {word : String} {behind : List String}
    {e : OpError} (hfront : Spells front ops) (h : Offends word behind e) :
    Blames (front ++ word :: behind) front word behind e where
  cut := rfl
  spells := ⟨ops, hfront⟩
  longest other ops' hother hspells := by
    by_contra hlonger
    have hbetween : front <+: other :=
      List.prefix_of_prefix_length_le (List.prefix_append _ _) hother (by omega)
    obtain ⟨more, rfl⟩ := hbetween
    have hmore : more <+: word :: behind := (List.prefix_append_right_inj front).1 hother
    cases more with
    | nil => exact hlonger (by rw [List.append_nil])
    | cons first fewer =>
      obtain ⟨rfl, hfewer⟩ := List.cons_prefix_cons.1 hmore
      have hread := hspells.ofWords_eq
      rw [(h.of_prefix hfewer).ofWords_append hfront] at hread
      cases hread
  offends := h

/-- Words in front that spell one operation leave the verdict to the words behind. -/
theorem Spelled.spells_or_blames {op : Op} {part rest : List String} (hop : Spelled op part)
    (h : (∃ ops, Spells rest ops) ∨ ∃ front word behind e, Blames rest front word behind e) :
    (∃ ops, Spells (part ++ rest) ops) ∨
      ∃ front word behind e, Blames (part ++ rest) front word behind e := by
  rcases h with ⟨ops, hops⟩ | ⟨front, word, behind, e, hblames⟩
  · exact .inl ⟨op :: ops, hops.cons hop⟩
  · obtain ⟨ops, hops⟩ := hblames.spells
    have hfront : Spells (part ++ front) (op :: ops) := hops.cons hop
    have hcut : part ++ rest = part ++ front ++ word :: behind := by
      rw [hblames.cut, List.append_assoc]
    rw [hcut]
    exact .inr ⟨part ++ front, word, behind, e, hblames.offends.blames hfront⟩

/-- Words spell operations, or one of them is to blame. -/
theorem spells_or_blames (words : List String) :
    (∃ ops, Spells words ops) ∨ ∃ front word behind e, Blames words front word behind e := by
  -- Reading goes on behind the words of one operation, so the induction is on what is left to read.
  induction words using Op.ofWords.induct with
  | case1 => exact .inl ⟨[], spells_nil⟩
  | case2 word rest hverb =>
    have hnone := Script.not_names_iff.2 hverb
    exact .inr ⟨[], word, rest, _, Offends.blames spells_nil (.unknownOp hnone)⟩
  | case3 word op rest hverb ih =>
    exact (spelled_of_complete (Script.names_iff.2 hverb)).spells_or_blames ih
  | case4 word i hverb =>
    have hname := eq_name_of_insertion (Script.names_iff.2 hverb)
    exact .inr ⟨[], word, [], _, Offends.blames spells_nil (.missingValue hname rfl)⟩
  | case5 word i value rest hverb ih =>
    exact (spelled_of_insertion (Script.names_iff.2 hverb) value).spells_or_blames ih

/-- The first word at fault decides about all words. -/
theorem Blames.ofWords_eq {words front behind : List String} {word : String} {e : OpError}
    (h : Blames words front word behind e) : Op.ofWords words = .error e := by
  obtain ⟨ops, hops⟩ := h.spells
  rw [h.cut, h.offends.ofWords_append hops]

end Words

/-- Operations are read from their own words, whatever their values are. Words are read as operations if
and only if they spell these. Otherwise they are refused for the word behind the longest beginning that
spells operations, as it is no name or the name of an insertion in the very last place; and if it is no
name, nothing behind it matters. -/
theorem Op.ofWords_exact :
    (∀ ops : List Op, ofWords (ops.flatMap words) = .ok ops) ∧
      ∀ ws : List String,
        (∀ ops, ofWords ws = .ok ops ↔ Words.Spells ws ops) ∧
          (∀ e, ofWords ws = .error e ↔ ∃ front word behind, Words.Blames ws front word behind e) ∧
          ∀ front word behind name, Words.Blames ws front word behind (.unknownOp name) →
            name = word ∧ ∀ other, ofWords (front ++ word :: other) = .error (.unknownOp word) := by
  refine ⟨fun ops => (Words.spells_words ops).ofWords_eq, fun ws => ⟨fun ops => ?_, fun e => ?_, ?_⟩⟩
  · constructor
    · intro h
      rcases Words.spells_or_blames ws with ⟨ops', hspells⟩ | ⟨front, word, behind, e, hblames⟩
      · rw [hspells.ofWords_eq] at h
        cases h
        exact hspells
      · rw [hblames.ofWords_eq] at h
        cases h
    · exact fun hspells => hspells.ofWords_eq
  · constructor
    · intro h
      rcases Words.spells_or_blames ws with ⟨ops, hspells⟩ | ⟨front, word, behind, e', hblames⟩
      · rw [hspells.ofWords_eq] at h
        cases h
      · rw [hblames.ofWords_eq] at h
        cases h
        exact ⟨front, word, behind, hblames⟩
    · rintro ⟨front, word, behind, hblames⟩
      exact hblames.ofWords_eq
  · intro front word behind name hblames
    obtain ⟨ops, hops⟩ := hblames.spells
    cases hblames.offends with
    | unknownOp hnone =>
      exact ⟨rfl, fun other => Words.Offends.ofWords_append hops (.unknownOp hnone)⟩

-- A value is not looked at, so that it may be a name or nothing.
example : Op.ofWords ["append", "append", "length", "prepend", ""] =
    .ok [.append "append", .len, .prepend ""] := by decide +kernel

/-- The second word is a value and the fourth one is not looked at. An insertion in the last place has no
value. -/
theorem Op.ofWords_exact_name_as_value :
    Words.Blames ["append", "append", "pop", "len"] ["append", "append"] "pop" ["len"]
        (.unknownOp "pop") ∧
      ofWords ["append", "append", "pop", "len"] = .error (.unknownOp "pop") ∧
      ofWords ["append", "append", "pop", "prepend"] = .error (.unknownOp "pop") ∧
      Words.Spells ["append", "append", "length"] [.append "append", .len] ∧
      ∃ front word behind,
        Words.Blames ["length", "append"] front word behind (.missingValue .append) := by
  have hfront : Words.Spells ["append", "append"] [.append "append"] :=
    Words.spells_words [.append "append"]
  have hunknown : ∀ verb, ¬Script.Names "pop" verb := Script.not_names_iff.2 (by decide +kernel)
  have hblames : Words.Blames ["append", "append", "pop", "len"] ["append", "append"] "pop" ["len"]
      (.unknownOp "pop") := Words.Offends.blames hfront (.unknownOp hunknown)
  obtain ⟨-, herror, hlocal⟩ := ofWords_exact.2 ["append", "append", "pop", "len"]
  obtain ⟨hspells, -, -⟩ := ofWords_exact.2 ["append", "append", "length"]
  obtain ⟨-, hmissing, -⟩ := ofWords_exact.2 ["length", "append"]
  exact ⟨hblames, (herror _).2 ⟨_, _, _, hblames⟩, (hlocal _ _ _ _ hblames).2 ["prepend"],
    (hspells _).1 (by decide +kernel), (hmissing _).1 (by decide +kernel)⟩

end SlotChain

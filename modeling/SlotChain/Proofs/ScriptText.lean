import SlotChain.Proofs.Lines
import SlotChain.Script

/-!
# Operations written as a script

A list of operations can be written as a script, each by its text on a line of its own. It is read back
as it is if and only if a line can hold the values of its insertions: they are not empty, have no line
feed in them and no white space around them. What else is in a value does not matter, be it a number
sign at the front, white space inside or the name of an operation. Every script that can be read at all
is read as such a list.
-/

namespace SlotChain

/-- A value that the line of an insertion can hold. -/
structure Script.Holdable (value : String) : Prop where
  /-- There is something to read behind the name of the insertion. -/
  ne_empty : value ≠ ""
  /-- The value stays on the line. -/
  no_lineFeed : '\n' ∉ value.toList
  /-- Trimming the line does not touch the value. -/
  unpadded : Text.Unpadded value.toList

/-- An operation whose value, if it has one, the line of an insertion can hold. -/
def Op.Writable (op : Op) : Prop := ∀ value ∈ op.value?, Script.Holdable value

/-! ### The text of one operation -/

namespace Insertion

@[simp] theorem value?_op (i : Insertion) (value : String) : (i.op value).value? = some value := by
  cases i <;> rfl

/-- The text of an insertion is its name and, behind a space, the value. -/
theorem toList_text_op (i : Insertion) (value : String) :
    (i.op value).text.toList = (i.op value).name.toList ++ ' ' :: value.toList := by
  cases i <;> simp only [op, Op.text, Op.value?, Op.name, String.toList_append,
    List.append_assoc] <;> rfl

/-- The name of an insertion asks for a value. -/
theorem ofName?_name_op (i : Insertion) (value : String) :
    Verb.ofName? (i.op value).name = some (.insertion i) := by
  cases i <;> rfl

end Insertion

namespace Op

/-- An operation is complete by its name, or it is an insertion. -/
theorem complete_or_insertion (op : Op) :
    (op.value? = none ∧ op.text = op.name ∧ Verb.ofName? op.name = some (.complete op)) ∨
      ∃ i value, op = Insertion.op i value := by
  cases op with
  | prepend value => exact .inr ⟨.prepend, value, rfl⟩
  | append value => exact .inr ⟨.append, value, rfl⟩
  | deleteHead => exact .inl ⟨rfl, rfl, rfl⟩
  | deleteTail => exact .inl ⟨rfl, rfl, rfl⟩
  | len => exact .inl ⟨rfl, rfl, rfl⟩
  | print => exact .inl ⟨rfl, rfl, rfl⟩

/-- The name of an operation is a word. -/
theorem name_noBlank (op : Op) : ∀ c ∈ op.name.toList, Text.isBlank c = false := by
  refine Text.noBlank_of_all ?_
  cases op <;> simp only [name] <;> decide +kernel

/-- What starts with the name of an operation is not passed over. -/
theorem isEffective_name_append (op : Op) (rest : List Char) :
    Script.isEffective (op.name.toList ++ rest) = true := by
  cases op <;> simp [name, Script.isEffective]

theorem name_ne_nil (op : Op) : op.name.toList ≠ [] := by
  cases op <;> simp [name]

/-- The text of an operation is not passed over. -/
theorem isEffective_text (op : Op) : Script.isEffective op.text.toList = true := by
  rcases op.complete_or_insertion with ⟨-, htext, -⟩ | ⟨i, value, rfl⟩
  · rw [htext, ← List.append_nil op.name.toList]
    exact op.isEffective_name_append []
  · rw [i.toList_text_op]
    exact (i.op value).isEffective_name_append (' ' :: value.toList)

namespace Writable

variable {op : Op}

theorem holdable {i : Insertion} {value : String} (h : (i.op value).Writable) :
    Script.Holdable value := h value (i.value?_op value)

/-- Trimming leaves the text of a writable operation as it is. -/
theorem unpadded_text (h : op.Writable) : Text.Unpadded op.text.toList := by
  rcases op.complete_or_insertion with ⟨-, htext, -⟩ | ⟨i, value, rfl⟩
  · rw [htext]
    exact .of_word op.name_noBlank
  · rw [i.toList_text_op]
    have hne : value.toList ≠ [] := fun hnil => h.holdable.ne_empty (String.toList_eq_nil_iff.1 hnil)
    exact .of_word_append (i.op value).name_noBlank (i.op value).name_ne_nil [' '] h.holdable.unpadded hne

/-- The text of a writable operation stays on its line. -/
theorem no_lineFeed_text (h : op.Writable) : '\n' ∉ op.text.toList := by
  have hname : '\n' ∉ op.name.toList := fun hmem => absurd (op.name_noBlank '\n' hmem) (by decide)
  rcases op.complete_or_insertion with ⟨-, htext, -⟩ | ⟨i, value, rfl⟩
  · rw [htext]
    exact hname
  · rw [i.toList_text_op, List.mem_append, List.mem_cons, not_or, not_or]
    exact ⟨hname, by decide, h.holdable.no_lineFeed⟩

/-- The text of a writable operation is read as the operation. -/
theorem readLine_text (h : op.Writable) : Script.readLine op.text.toList = .ok op := by
  rcases op.complete_or_insertion with ⟨-, htext, hverb⟩ | ⟨i, value, rfl⟩
  · rw [htext, Script.readLine, Text.splitAtBlank_of_word op.name_noBlank]
    simp only [String.ofList_toList, hverb]
  · rw [i.toList_text_op, Script.readLine,
      Text.splitAtBlank_append (i.op value).name_noBlank (by decide)]
    simp only [String.ofList_toList, i.ofName?_name_op, h.holdable.unpadded.trim_eq]

end Writable

end Op

/-! ### The text of a script -/

namespace Script

/-- Operations are read back from the lines of their texts, whatever the number of the first. -/
theorem readLines_texts {ops : List Op} (hops : ∀ op ∈ ops, op.Writable) (n : Nat) :
    readLines n (ops.map fun op => op.text.toList) = .ok ops := by
  induction ops generalizing n with
  | nil => rfl
  | cons op rest ih =>
    have hop := hops op List.mem_cons_self
    have hrest := ih (fun op' h' => hops op' (List.mem_cons_of_mem op h')) (n + 1)
    simp only [List.map_cons, readLines, hop.unpadded_text.trim_eq, op.isEffective_text, if_true,
      hop.readLine_text, hrest]
    rfl

/-- Operations written as a script, each on a line of its own. -/
def render (ops : List Op) : String := "\n".intercalate (ops.map Op.text)

theorem toList_render (ops : List Op) :
    (render ops).toList = ['\n'].intercalate (ops.map fun op => op.text.toList) := by
  rw [render, String.toList_intercalate, List.map_map]
  rfl

/-- The texts of writable operations can be lines. -/
theorem isLine_texts {ops : List Op} (hops : ∀ op ∈ ops, op.Writable) :
    ∀ line ∈ ops.map fun op => op.text.toList, Text.IsLine line := by
  rw [List.forall_mem_map]
  exact fun op hmem => (hops op hmem).unpadded_text.isLine (hops op hmem).no_lineFeed_text

/-- Writable operations are read back from the script that they are written as. -/
theorem parse_render {ops : List Op} (hops : ∀ op ∈ ops, op.Writable) :
    parse (render ops) = .ok ops := by
  have hne : ∀ line ∈ ops.map fun op => op.text.toList, line ≠ [] := by
    rw [List.forall_mem_map]
    intro op _ hnil
    have heffective := op.isEffective_text
    rw [hnil] at heffective
    cases heffective
  rw [parse, toList_render, Text.lines_intercalate (isLine_texts hops) hne]
  exact readLines_texts hops 1

/-- A line feed behind the last line makes no difference. -/
theorem parse_render_lineFeed {ops : List Op} (hops : ∀ op ∈ ops, op.Writable) :
    parse (render ops ++ "\n") = .ok ops := by
  cases ops with
  | nil => rfl
  | cons op rest =>
    have hlines := Text.lines_intercalate_lineFeed (isLine_texts hops) (List.cons_ne_nil _ _)
    rw [parse, String.toList_append, toList_render]
    exact (congrArg (readLines 1) hlines).trans (readLines_texts hops 1)

/-! ### What a script can be read as -/

/-- What a name is read as by itself has no value. -/
theorem value?_of_ofName? {word : String} {op : Op} (h : Verb.ofName? word = some (.complete op)) :
    op.value? = none := by
  unfold Verb.ofName? at h
  split at h <;> cases h <;> rfl

/-- A trimmed line is only read as an operation that can be written. -/
theorem writable_of_readLine {line : List Char} {op : Op} (hfeed : '\n' ∉ line)
    (hline : Text.Unpadded line) (h : readLine line = .ok op) : op.Writable := by
  intro value hvalue
  rw [readLine] at h
  generalize hcut : Text.splitAtBlank line = cut at h
  obtain ⟨word, rest⟩ := cut
  dsimp only at h
  split at h
  · cases h
  · rename_i verb hverb
    cases h
    rw [value?_of_ofName? hverb] at hvalue
    cases hvalue
  · cases h
  · rename_i i cs hverb
    cases h
    rw [i.value?_op, Option.mem_some_iff] at hvalue
    subst hvalue
    obtain ⟨b, hb, rfl⟩ := Text.eq_append_of_splitAtBlank hcut
    -- The white space behind the name does not end the line, so there is more behind it.
    obtain ⟨c, hmem, hblank⟩ := hline.exists_noBlank hb
    refine ⟨?_, ?_, ?_⟩
    · rw [ne_eq, ← String.toList_eq_nil_iff, String.toList_ofList]
      exact Text.trim_ne_nil hmem hblank
    · rw [String.toList_ofList]
      intro hin
      exact hfeed (List.mem_append_right word (List.mem_cons_of_mem b (Text.trim_subset cs hin)))
    · rw [String.toList_ofList]
      exact Text.unpadded_trim cs

/-- Lines are only read as operations that can be written. -/
theorem writable_of_readLines {n : Nat} {ls : List (List Char)} {ops : List Op}
    (hfeed : ∀ line ∈ ls, '\n' ∉ line) (h : readLines n ls = .ok ops) :
    ∀ op ∈ ops, op.Writable := by
  induction ls generalizing n ops with
  | nil =>
    cases h
    intro op hop
    cases hop
  | cons line rest ih =>
    have hrest : ∀ l ∈ rest, '\n' ∉ l := fun l hl => hfeed l (List.mem_cons_of_mem line hl)
    rw [readLines] at h
    split at h
    · split at h
      · cases h
      · rename_i op hline
        have hop : op.Writable := by
          refine writable_of_readLine ?_ (Text.unpadded_trim line) hline
          exact fun hin => hfeed line List.mem_cons_self (Text.trim_subset line hin)
        cases hmore : readLines (n + 1) rest with
        | error e =>
          rw [hmore] at h
          cases h
        | ok more =>
          rw [hmore] at h
          cases h
          exact List.forall_mem_cons.2 ⟨hop, ih hrest hmore⟩
    · exact ih hrest h

/-- A script is only read as operations that can be written. -/
theorem writable_of_parse {text : String} {ops : List Op} (h : parse text = .ok ops) :
    ∀ op ∈ ops, op.Writable :=
  writable_of_readLines (fun _ hline => Text.lineFeed_notMem_lines hline) h

/-- What scripts are read as are the operations that can be written. They are read back from the script
that they are written as, with or without a line feed behind it, so reading a script, writing what it
holds and reading that gives the same again. -/
theorem parse_image (ops : List Op) :
    ((∃ text, parse text = .ok ops) ↔ ∀ op ∈ ops, op.Writable) ∧
      ((∀ op ∈ ops, op.Writable) →
        parse (render ops) = .ok ops ∧ parse (render ops ++ "\n") = .ok ops) ∧
      ∀ text, parse text = .ok ops → parse (render ops) = parse text := by
  refine ⟨⟨?_, fun hops => ⟨render ops, parse_render hops⟩⟩,
    fun hops => ⟨parse_render hops, parse_render_lineFeed hops⟩, ?_⟩
  · rintro ⟨text, h⟩
    exact writable_of_parse h
  · intro text h
    rw [h]
    exact parse_render (writable_of_parse h)

-- A value with a margin is read back without it.
example : parse (render [.append " a"]) = .ok [.append "a"] := by decide +kernel

/-- A comment, an empty line and white space around the lines are gone when the script is written again.
A value that starts with a number sign and one with a carriage return are not. -/
theorem parse_image_odd_values :
    parse " append \t# len \r\n# note\n\nprepend a\r  b\nlength" =
        .ok [.append "# len", .prepend "a\r  b", .len] ∧
      (∀ op ∈ [Op.append "# len", .prepend "a\r  b", .len], op.Writable) ∧
      render [.append "# len", .prepend "a\r  b", .len] = "append # len\nprepend a\r  b\nlen" ∧
      parse "append # len\nprepend a\r  b\nlen\n" =
        .ok [.append "# len", .prepend "a\r  b", .len] := by
  have hparse : parse " append \t# len \r\n# note\n\nprepend a\r  b\nlength" =
      .ok [.append "# len", .prepend "a\r  b", .len] := by decide +kernel
  have himage := parse_image [.append "# len", .prepend "a\r  b", .len]
  have hwritable := himage.1.1 ⟨_, hparse⟩
  exact ⟨hparse, hwritable, by decide +kernel, (himage.2.1 hwritable).2⟩

end Script

end SlotChain

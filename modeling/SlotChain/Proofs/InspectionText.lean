import SlotChain.Proofs.Integers
import SlotChain.Proofs.Lines
import SlotChain.Proofs.Quotation
import SlotChain.Proofs.Reachable

/-!
# Inspection texts tell chains apart

An inspection text shows every item by a text from which one can tell where the item ends. On one line the
items stand between commas: whatever commas and brackets a quoted item holds, its last quotation mark is
found by reading it, and numbers hold neither. Over many lines every item has a line of its own, because no
item is shown with a line feed. So whatever the items are, chains that are shown alike hold the same.
-/

namespace SlotChain

namespace Text

variable {α : Type}

/-- A way to write values so that it can be told where each of them ends in a list. -/
structure Separable (write : α → String) : Prop where
  /-- No two values are written alike. -/
  injective : Function.Injective write
  /-- No value goes on with a comma or a closing bracket where another ends. -/
  ends : ∀ x y c more, (write y).toList = (write x).toList ++ c :: more → c ≠ ',' ∧ c ≠ ']'
  /-- Every value starts with something else than a closing bracket. -/
  starts : ∀ x, ∃ c more, (write x).toList = c :: more ∧ c ≠ ']'
  /-- Every value stays on one line. -/
  oneLine : ∀ x, '\n' ∉ (write x).toList

/-- Quoted texts can be told apart in a list. -/
theorem separable_quoted : Separable quoted where
  injective := quoted_injective
  ends s t c more h := by cases eq_nil_of_quoted_append h
  starts s := by
    rw [quoted, String.toList_ofList, List.cons_append]
    exact ⟨_, _, rfl, by decide⟩
  oneLine := lineFeed_notMem_quoted

/-- Whole numbers can be told apart in a list. -/
theorem separable_integer : Separable integer where
  injective := integer_injective
  ends m n c more h := by
    have hmem : c ∈ (integer n).toList := by
      rw [h]
      exact List.mem_append_right _ List.mem_cons_self
    rcases isDigit_of_mem_integer hmem with rfl | hdigit
    · decide
    · constructor <;> rintro rfl <;> cases hdigit
  starts n := by
    obtain ⟨c, more, htext⟩ := List.exists_cons_of_ne_nil (toList_integer_ne_nil n)
    refine ⟨c, more, htext, ?_⟩
    rintro rfl
    have hmem : ']' ∈ (integer n).toList := by
      rw [htext]
      exact List.mem_cons_self
    exact absurd (isDigit_of_mem_integer hmem) (by decide)
  oneLine n hmem := absurd (isDigit_of_mem_integer hmem) (by decide)

/-- What can stand behind a value in a list on one line. -/
def Stops (cs : List Char) : Prop := ∃ c more, cs = c :: more ∧ (c = ',' ∨ c = ']')

/-- The values behind the first in a list on one line, and the end of the list. -/
def furtherMembers (write : α → String) (xs : List α) : List Char :=
  xs.flatMap (fun x => ',' :: ' ' :: (write x).toList) ++ [']']

theorem furtherMembers_cons (write : α → String) (x : α) (xs : List α) :
    furtherMembers write (x :: xs) =
      ',' :: ' ' :: ((write x).toList ++ furtherMembers write xs) := by
  rw [furtherMembers, List.flatMap_cons, List.append_assoc]
  rfl

theorem stops_furtherMembers (write : α → String) (xs : List α) : Stops (furtherMembers write xs) := by
  cases xs with
  | nil => exact ⟨_, _, rfl, .inr rfl⟩
  | cons x xs => exact ⟨_, _, rfl, .inl rfl⟩

namespace Separable

variable {write : α → String}

/-- A value with more behind it does not look like another that ends there. -/
theorem eq_of_append (h : Separable write) {x y : α} {cs more rest : List Char}
    (hy : (write y).toList = (write x).toList ++ more) (hcs : cs = more ++ rest) (hstop : Stops cs) :
    x = y ∧ cs = rest := by
  cases more with
  | nil =>
    rw [List.append_nil] at hy
    exact ⟨(h.injective (String.toList_injective hy)).symm, hcs⟩
  | cons c more =>
    obtain ⟨d, tail, rfl, hd⟩ := hstop
    obtain ⟨rfl, -⟩ := List.cons.inj hcs
    obtain ⟨hcomma, hbracket⟩ := h.ends x y d more hy
    exact (hd.elim hcomma hbracket).elim

/-- The value in front can be told, and so can what follows it. -/
theorem cancel (h : Separable write) {x y : α} {cs ds : List Char} (hcs : Stops cs) (hds : Stops ds)
    (heq : (write x).toList ++ cs = (write y).toList ++ ds) : x = y ∧ cs = ds := by
  rcases List.append_eq_append_iff.1 heq with ⟨more, hy, hrest⟩ | ⟨more, hx, hrest⟩
  · exact h.eq_of_append hy hrest hcs
  · exact (h.eq_of_append hx hrest hds).imp Eq.symm Eq.symm

/-- The values behind the first can be told. -/
theorem furtherMembers_injective (h : Separable write) :
    Function.Injective (furtherMembers write) := by
  intro xs ys heq
  induction xs generalizing ys with
  | nil =>
    cases ys with
    | nil => rfl
    | cons y ys => cases heq
  | cons x xs ih =>
    cases ys with
    | nil => cases heq
    | cons y ys =>
      rw [furtherMembers_cons, furtherMembers_cons] at heq
      have hmembers := (List.cons.inj (List.cons.inj heq).2).2
      obtain ⟨rfl, hrest⟩ :=
        h.cancel (stops_furtherMembers write xs) (stops_furtherMembers write ys) hmembers
      rw [ih hrest]

end Separable

namespace Shape

/-- Values on one line, each by its own text. -/
theorem compactAll_eq_map (members : List Shape) : compactAll members = members.map compact := by
  induction members with
  | nil => rfl
  | cons s rest ih => rw [compactAll, ih, List.map_cons]

/-- Values over many lines, each by its own lines. -/
theorem linesAll_eq_map (members : List Shape) : linesAll members = members.map lines := by
  induction members with
  | nil => rfl
  | cons s rest ih => rw [linesAll, ih, List.map_cons]

/-- A list of values, each shown by a text of one line. -/
def atoms (write : α → String) (xs : List α) : Shape := .list (xs.map fun x => .atom (write x))

theorem toList_compact_atoms_nil (write : α → String) :
    (atoms write []).compact.toList = ['[', ']'] := by
  rw [atoms, List.map_nil, compact, compactAll]
  decide +kernel

/-- The text of a list on one line. -/
theorem toList_compact_atoms_cons (write : α → String) (x : α) (xs : List α) :
    (atoms write (x :: xs)).compact.toList =
      '[' :: ((write x).toList ++ furtherMembers write xs) := by
  have hrest : (", ".toList.intercalate ((x :: xs).map fun y => (write y).toList)) ++ [']'] =
      (write x).toList ++ furtherMembers write xs := by
    induction xs generalizing x with
    | nil =>
      rw [List.map_singleton, List.intercalate_singleton]
      rfl
    | cons y ys ih =>
      have hy := ih y
      rw [List.map_cons] at hy
      rw [List.map_cons, List.map_cons, List.intercalate_cons_cons, List.append_assoc,
        List.append_assoc, hy, furtherMembers_cons]
      rfl
  rw [← hrest, atoms, compact, compactAll_eq_map, List.map_map, String.toList_append,
    String.toList_append, String.toList_intercalate, List.map_map]
  rfl

/-- Lists on one line can be told apart. -/
theorem compact_atoms_injective {write : α → String} (h : Separable write) :
    Function.Injective fun xs => (atoms write xs).compact := by
  have hempty : ∀ x xs, (atoms write []).compact ≠ (atoms write (x :: xs)).compact := by
    intro x xs heq
    obtain ⟨c, more, hx, hbracket⟩ := h.starts x
    have htext := congrArg String.toList heq
    rw [toList_compact_atoms_nil, toList_compact_atoms_cons, hx] at htext
    exact hbracket (List.cons.inj (List.cons.inj htext).2).1.symm
  intro xs ys heq
  cases xs with
  | nil =>
    cases ys with
    | nil => rfl
    | cons y ys => exact absurd heq (hempty y ys)
  | cons x xs =>
    cases ys with
    | nil => exact absurd heq.symm (hempty x xs)
    | cons y ys =>
      have htext := congrArg String.toList heq
      simp only [toList_compact_atoms_cons] at htext
      obtain ⟨rfl, hrest⟩ := h.cancel (stops_furtherMembers write xs) (stops_furtherMembers write ys)
        (List.cons.inj htext).2
      rw [h.furtherMembers_injective hrest]

/-- The text of a list on one line holds no line feed. -/
theorem lineFeed_notMem_compact_atoms {write : α → String} (h : Separable write) (xs : List α) :
    '\n' ∉ (atoms write xs).compact.toList := by
  cases xs with
  | nil =>
    rw [toList_compact_atoms_nil]
    decide
  | cons x xs =>
    have hfurther : '\n' ∉ furtherMembers write xs := by
      rw [furtherMembers, List.mem_append, List.mem_flatMap, not_or]
      refine ⟨?_, by decide⟩
      rintro ⟨y, -, hmem⟩
      rw [List.mem_cons, List.mem_cons] at hmem
      rcases hmem with hcomma | hspace | hmem
      · exact absurd hcomma (by decide)
      · exact absurd hspace (by decide)
      · exact h.oneLine y hmem
    rw [toList_compact_atoms_cons, List.mem_cons, List.mem_append, not_or, not_or]
    exact ⟨by decide, h.oneLine x, hfurther⟩

/-- The line of one value in a list over many lines. -/
def memberLine (write : α → String) (x : α) : String := "    " ++ (write x ++ ",")

/-- The lines of a list that is not empty. -/
theorem lines_atoms_cons (write : α → String) (x : α) (xs : List α) :
    (atoms write (x :: xs)).lines = "[" :: ((x :: xs).map (memberLine write) ++ ["]"]) := by
  have hmembers : linesAll ((x :: xs).map fun y => .atom (write y)) =
      (x :: xs).map fun y => [write y] := by
    rw [linesAll_eq_map, List.map_map]
    rfl
  have hlines : ∀ ys : List α, ((ys.map fun y => [write y]).flatMap fun m =>
      (comma m).map ("    " ++ ·)) = ys.map (memberLine write) := by
    intro ys
    rw [List.flatMap_map, List.map_eq_flatMap]
    rfl
  rw [atoms, lines, hmembers, ← hlines]
  rfl

/-- No line of a list holds a line feed. -/
theorem lineFeed_notMem_lines_atoms {write : α → String} (h : Separable write) (xs : List α) :
    ∀ line ∈ (atoms write xs).lines, '\n' ∉ line.toList := by
  cases xs with
  | nil => exact List.forall_mem_singleton.2 (by decide +kernel)
  | cons x xs =>
    rw [lines_atoms_cons]
    refine List.forall_mem_cons.2 ⟨by decide +kernel, List.forall_mem_append.2 ⟨?_, ?_⟩⟩
    · refine List.forall_mem_map.2 fun y _ => ?_
      rw [memberLine, String.toList_append, String.toList_append, List.mem_append, List.mem_append,
        not_or, not_or]
      exact ⟨by decide +kernel, h.oneLine y, by decide +kernel⟩
    · exact List.forall_mem_singleton.2 (by decide +kernel)

/-- A list always has a line. -/
theorem lines_atoms_ne_nil (write : α → String) (xs : List α) : (atoms write xs).lines ≠ [] := by
  cases xs with
  | nil => exact List.cons_ne_nil _ _
  | cons x xs =>
    rw [lines_atoms_cons]
    exact List.cons_ne_nil _ _

/-- The text of a list over many lines is cut into its lines again. -/
theorem splitOn_pretty_atoms {write : α → String} (h : Separable write) (xs : List α) :
    (atoms write xs).pretty.toList.splitOn '\n' = (atoms write xs).lines.map String.toList := by
  have hfeed : ∀ line ∈ (atoms write xs).lines.map String.toList, '\n' ∉ line :=
    List.forall_mem_map.2 (lineFeed_notMem_lines_atoms h xs)
  have hne : (atoms write xs).lines.map String.toList ≠ [] :=
    List.map_eq_nil_iff.not.2 (lines_atoms_ne_nil write xs)
  rw [pretty, String.toList_intercalate]
  exact List.splitOn_intercalate '\n' hfeed hne

/-- Lists over many lines can be told apart. -/
theorem pretty_atoms_injective {write : α → String} (h : Separable write) :
    Function.Injective fun xs => (atoms write xs).pretty := by
  have hline : Function.Injective (memberLine write) := by
    intro x y heq
    exact h.injective ((String.append_left_inj _).1 ((String.append_right_inj _).1 heq))
  intro xs ys heq
  have htext : (atoms write xs).pretty = (atoms write ys).pretty := heq
  have hlines : (atoms write xs).lines = (atoms write ys).lines := by
    have hsplit := splitOn_pretty_atoms h xs
    rw [htext, splitOn_pretty_atoms h ys] at hsplit
    exact (List.map_injective_iff.2 (fun _ _ => String.toList_injective) hsplit).symm
  cases xs with
  | nil =>
    cases ys with
    | nil => rfl
    | cons y ys =>
      rw [lines_atoms_cons] at hlines
      exact absurd (List.cons.inj hlines).1 (by decide +kernel)
  | cons x xs =>
    cases ys with
    | nil =>
      rw [lines_atoms_cons] at hlines
      exact absurd (List.cons.inj hlines).1 (by decide +kernel)
    | cons y ys =>
      rw [lines_atoms_cons, lines_atoms_cons] at hlines
      exact hline.list_map (List.append_cancel_right (List.cons.inj hlines).2)

/-- A list that is not empty has one line feed more than values. -/
theorem count_pretty_atoms {write : α → String} (h : Separable write) {xs : List α} (hxs : xs ≠ []) :
    (atoms write xs).pretty.toList.count '\n' = xs.length + 1 := by
  obtain ⟨x, rest, rfl⟩ := List.exists_cons_of_ne_nil hxs
  have hlength := length_splitOn (atoms write (x :: rest)).pretty.toList
  rw [splitOn_pretty_atoms h, lines_atoms_cons] at hlength
  simp only [List.length_map, List.length_cons, List.length_append, List.length_nil] at hlength ⊢
  omega

end Shape

end Text

namespace Chain

variable {α : Type} {A : Type → Type} [SlotMap A] [Item α]

/-- What the two inspection texts of a chain tell of its items. -/
structure InspectionTells (c : Chain α A) (xs : List α) (text pretty : String) : Prop where
  /-- These are the items. -/
  items : c.items = .ok xs
  /-- This is the text on one line. -/
  inspect : c.answer .inspect = .ok (.text text)
  /-- This is the text over many lines. -/
  inspectPretty : c.answer .inspectPretty = .ok (.text pretty)
  /-- The one text stays on its line. -/
  oneLine : '\n' ∉ text.toList
  /-- The other has a line for every item and one for each bracket, if there are items. -/
  manyLines : xs ≠ [] → pretty.toList.count '\n' = xs.length + 1
  /-- Whatever chain has the same text on one line has the same items. -/
  apart : ∀ (d : Chain α A) (ys : List α), d.Reachable → d.items = .ok ys →
    d.answer .inspect = .ok (.text text) → ys = xs
  /-- So has whatever chain has the same text over many lines. -/
  apartPretty : ∀ (d : Chain α A) (ys : List α), d.Reachable → d.items = .ok ys →
    d.answer .inspectPretty = .ok (.text pretty) → ys = xs

/-- A chain tells of its items by its inspection texts, if the texts of the items can be told apart in a
list. -/
theorem Holds.inspectionTells {c : Chain α A} {write : α → String} {xs : List α} (h : c.Holds xs)
    (hshape : ∀ x : α, Item.shape x = .atom (write x)) (hwrite : Text.Separable write) :
    c.InspectionTells xs (Text.Shape.atoms write xs).compact (Text.Shape.atoms write xs).pretty := by
  have hatoms : ∀ ys : List α, .list (ys.map Item.shape) = Text.Shape.atoms write ys := by
    intro ys
    rw [Text.Shape.atoms, List.map_congr_left fun y _ => hshape y]
  have hcompact : ∀ {d : Chain α A} {ys}, d.Holds ys →
      d.answer .inspect = .ok (.text (Text.Shape.atoms write ys).compact) := by
    intro d ys hd
    rw [hd.answer_eq, Query.plain, hatoms]
  have hpretty : ∀ {d : Chain α A} {ys}, d.Holds ys →
      d.answer .inspectPretty = .ok (.text (Text.Shape.atoms write ys).pretty) := by
    intro d ys hd
    rw [hd.answer_eq, Query.plain, hatoms]
  exact
    { items := h.items_eq
      inspect := hcompact h
      inspectPretty := hpretty h
      oneLine := Text.Shape.lineFeed_notMem_compact_atoms hwrite xs
      manyLines := Text.Shape.count_pretty_atoms hwrite
      apart := fun d ys hd hitems htext => by
        have hsame := (hcompact (hd.holds_of_items hitems)).symm.trans htext
        exact Text.Shape.compact_atoms_injective hwrite (Answer.text.inj (Except.ok.inj hsame))
      apartPretty := fun d ys hd hitems htext => by
        have hsame := (hpretty (hd.holds_of_items hitems)).symm.trans htext
        exact Text.Shape.pretty_atoms_injective hwrite (Answer.text.inj (Except.ok.inj hsame)) }

/-- The inspection texts of every reachable chain tell of its items, whatever texts or whole numbers they
are. -/
theorem Reachable.inspection_tells :
    (∀ c : Chain String A, c.Reachable → ∃ xs text pretty, c.InspectionTells xs text pretty) ∧
    ∀ c : Chain Int A, c.Reachable → ∃ xs text pretty, c.InspectionTells xs text pretty := by
  constructor
  · intro c hc
    obtain ⟨xs, hxs⟩ := hc.holds
    exact ⟨xs, _, _, hxs.inspectionTells (fun _ => rfl) Text.separable_quoted⟩
  · intro c hc
    obtain ⟨xs, hxs⟩ := hc.holds
    exact ⟨xs, _, _, hxs.inspectionTells (fun _ => rfl) Text.separable_integer⟩

/-- Texts with quotation marks, commas, a bracket, a line feed and an accent without a letter of its own,
and two numbers. -/
theorem Reachable.inspection_tells_odd_items :
    (∃ c : Chain String,
      ListStep.performAll [.append "a\", \"b", .append "]\n", .append "\u0301"] .empty =
        (c, .ok [.done, .done, .done]) ∧
      c.Reachable ∧
      c.InspectionTells ["a\", \"b", "]\n", "\u0301"]
        "[\"a\\\", \\\"b\", \"]\\n\", \"\\u\x7b301\x7d\"]"
        "[\n    \"a\\\", \\\"b\",\n    \"]\\n\",\n    \"\\u\x7b301\x7d\",\n]") ∧
    ∃ c : Chain Int, ListStep.performAll [.append 0, .prepend (-12)] .empty = (c, .ok [.done, .done]) ∧
      c.Reachable ∧ c.InspectionTells [-12, 0] "[-12, 0]" "[\n    -12,\n    0,\n]" := by
  constructor
  · obtain ⟨c, hrun, hreach, hc⟩ := of_steps (A := Arena)
      [.append "a\", \"b", .append "]\n", .append "\u0301"] (by decide)
    obtain ⟨xs, text, pretty, htells⟩ := (inspection_tells (A := Arena)).1 c hreach
    have hxs : xs = ["a\", \"b", "]\n", "\u0301"] := hc.eq_of_items htells.items
    have htext := Except.ok.inj (htells.inspect.symm.trans (hc.answer_eq .inspect))
    have hpretty := Except.ok.inj (htells.inspectPretty.symm.trans (hc.answer_eq .inspectPretty))
    have hline : text = "[\"a\\\", \\\"b\", \"]\\n\", \"\\u\x7b301\x7d\"]" :=
      (Answer.text.inj htext).trans (by decide +kernel)
    have hlines : pretty =
        "[\n    \"a\\\", \\\"b\",\n    \"]\\n\",\n    \"\\u\x7b301\x7d\",\n]" :=
      (Answer.text.inj hpretty).trans (by decide +kernel)
    rw [hxs, hline, hlines] at htells
    exact ⟨c, hrun, hreach, htells⟩
  · obtain ⟨c, hrun, hreach, hc⟩ := of_steps (A := Arena) [.append 0, .prepend (-12 : Int)] (by decide)
    obtain ⟨xs, text, pretty, htells⟩ := (inspection_tells (A := Arena)).2 c hreach
    have hxs : xs = [-12, 0] := hc.eq_of_items htells.items
    have htext := Except.ok.inj (htells.inspect.symm.trans (hc.answer_eq .inspect))
    have hpretty := Except.ok.inj (htells.inspectPretty.symm.trans (hc.answer_eq .inspectPretty))
    have hline : text = "[-12, 0]" := (Answer.text.inj htext).trans (by decide +kernel)
    have hlines : pretty = "[\n    -12,\n    0,\n]" :=
      (Answer.text.inj hpretty).trans (by decide +kernel)
    rw [hxs, hline, hlines] at htells
    exact ⟨c, hrun, hreach, htells⟩

end Chain

end SlotChain

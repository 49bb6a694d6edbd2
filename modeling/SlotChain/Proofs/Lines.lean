import SlotChain.Text.Blank
import SlotChain.Text.Lines
import Mathlib.Data.List.DropRight

/-!
# Lines, margins and words

What cutting a text into lines, trimming it and splitting off its first word give. Lines that hold no
line feed and do not end with a carriage return come back as they are when they are joined by line feeds;
a text without white space at its ends comes back as it is when it is trimmed; and a word without white
space comes back when white space and more follow it.
-/

namespace SlotChain.Text

/-! ### Lines -/

/-- Only a line feed, or a carriage return before one, ends a line. -/
theorem lines_cons {c : Char} {cs : List Char} (hc : c ≠ '\n')
    (hpair : ∀ rest, c = '\r' → cs = '\n' :: rest → False) :
    lines (c :: cs) =
      match lines cs with
      | [] => [[c]]
      | line :: more => (c :: line) :: more :=
  lines.eq_4 c cs hc hpair

/-- A line ends at the first line feed. -/
theorem lines_append_lineFeed {line : List Char} (hfeed : '\n' ∉ line)
    (hreturn : line.getLast? ≠ some '\r') (rest : List Char) :
    lines (line ++ '\n' :: rest) = line :: lines rest := by
  induction line with
  | nil => rfl
  | cons c cs ih =>
    rw [List.mem_cons, not_or] at hfeed
    have hpair : ∀ more, c = '\r' → cs ++ '\n' :: rest = '\n' :: more → False := by
      rintro more rfl hmore
      cases cs with
      | nil => exact hreturn rfl
      | cons d ds =>
        cases hmore
        exact hfeed.2 List.mem_cons_self
    have hlast : cs.getLast? ≠ some '\r' := by
      intro h
      rw [List.getLast?_cons, h] at hreturn
      exact hreturn rfl
    rw [List.cons_append, lines_cons (Ne.symm hfeed.1) hpair, ih hfeed.2 hlast]

/-- A text without line feed is one line. -/
theorem lines_of_no_lineFeed {line : List Char} (hfeed : '\n' ∉ line) (hne : line ≠ []) :
    lines line = [line] := by
  induction line with
  | nil => exact absurd rfl hne
  | cons c cs ih =>
    rw [List.mem_cons, not_or] at hfeed
    have hpair : ∀ more, c = '\r' → cs = '\n' :: more → False := by
      rintro more - rfl
      exact hfeed.2 List.mem_cons_self
    rw [lines_cons (Ne.symm hfeed.1) hpair]
    cases cs with
    | nil => rfl
    | cons d ds => rw [ih hfeed.2 (List.cons_ne_nil d ds)]

/-- The number of pieces is one more than that of the line feeds between them. -/
theorem length_splitOn (cs : List Char) : (cs.splitOn '\n').length = cs.count '\n' + 1 := by
  induction cs with
  | nil => rfl
  | cons c rest ih =>
    rw [List.splitOn_cons_eq_if_modifyHead, List.count_cons]
    split
    · rw [List.length_cons, ih]
    · rw [List.length_modifyHead, ih, Nat.add_zero]

/-- No line holds a line feed. -/
theorem lineFeed_notMem_lines {cs line : List Char} (h : line ∈ lines cs) : '\n' ∉ line := by
  induction cs using lines.induct generalizing line with
  | case1 => cases h
  | case2 rest ih =>
    rw [lines, List.mem_cons] at h
    rcases h with rfl | h
    · exact List.not_mem_nil
    · exact ih h
  | case3 rest ih =>
    rw [lines, List.mem_cons] at h
    rcases h with rfl | h
    · exact List.not_mem_nil
    · exact ih h
  | case4 c rest hc hpair hcut _ =>
    rw [lines_cons hc hpair, hcut, List.mem_singleton] at h
    subst h
    exact fun hmem => hc (List.mem_singleton.1 hmem).symm
  | case5 c rest hc hpair first more hcut ih =>
    rw [lines_cons hc hpair, hcut, List.mem_cons] at h
    rw [hcut] at ih
    rcases h with rfl | h
    · have hfirst := ih List.mem_cons_self
      rw [List.mem_cons, not_or]
      exact ⟨fun e => hc e.symm, hfirst⟩
    · exact ih (List.mem_cons_of_mem _ h)

/-- What a line must be to be found again in a text of several. -/
structure IsLine (line : List Char) : Prop where
  /-- A line feed would end it. -/
  no_lineFeed : '\n' ∉ line
  /-- A carriage return at its end would count to the end of the line. -/
  no_return : line.getLast? ≠ some '\r'

/-- Lines are found again in their text; so is the last one, unless it is empty. -/
theorem lines_intercalate {ls : List (List Char)} (hlines : ∀ line ∈ ls, IsLine line)
    (hne : ∀ line ∈ ls, line ≠ []) : lines (['\n'].intercalate ls) = ls := by
  induction ls with
  | nil => rfl
  | cons line rest ih =>
    have hrest := ih (fun l hl => hlines l (List.mem_cons_of_mem _ hl))
      fun l hl => hne l (List.mem_cons_of_mem _ hl)
    have hline := hlines line List.mem_cons_self
    cases rest with
    | nil =>
      rw [List.intercalate_singleton]
      exact lines_of_no_lineFeed hline.no_lineFeed (hne line List.mem_cons_self)
    | cons next more =>
      rw [List.intercalate_cons_cons, List.append_assoc, List.singleton_append,
        lines_append_lineFeed hline.no_lineFeed hline.no_return, hrest]

/-- A line feed behind the last line changes nothing, if there is one. -/
theorem lines_intercalate_lineFeed {ls : List (List Char)} (hlines : ∀ line ∈ ls, IsLine line)
    (hsome : ls ≠ []) : lines (['\n'].intercalate ls ++ ['\n']) = ls := by
  induction ls with
  | nil => exact absurd rfl hsome
  | cons line rest ih =>
    have hline := hlines line List.mem_cons_self
    cases rest with
    | nil =>
      rw [List.intercalate_singleton, lines_append_lineFeed hline.no_lineFeed hline.no_return]
      rfl
    | cons next more =>
      have hrest := ih (fun l hl => hlines l (List.mem_cons_of_mem _ hl)) (List.cons_ne_nil _ _)
      rw [List.intercalate_cons_cons, List.append_assoc, List.append_assoc, List.singleton_append,
        lines_append_lineFeed hline.no_lineFeed hline.no_return, hrest]

/-! ### Margins -/

/-- A text without white space at either end. -/
structure Unpadded (cs : List Char) : Prop where
  /-- The first character is no white space. -/
  first : ∀ c ∈ cs.head?, isBlank c = false
  /-- The last character is no white space. -/
  last : ∀ c ∈ cs.getLast?, isBlank c = false

theorem trimRight_eq_rdropWhile (cs : List Char) : trimRight cs = cs.rdropWhile isBlank := by
  induction cs with
  | nil => rfl
  | cons c cs ih =>
    have hcons : (c :: cs).rdropWhile isBlank =
        if (cs.reverse.dropWhile isBlank).isEmpty then if isBlank c then [] else [c]
        else c :: cs.rdropWhile isBlank := by
      rw [List.rdropWhile, List.reverse_cons, List.dropWhile_append]
      split
      · rw [List.dropWhile_cons]
        split <;> rfl
      · rw [List.reverse_append]
        rfl
    have hempty : (cs.reverse.dropWhile isBlank).isEmpty = (cs.rdropWhile isBlank).isEmpty := by
      rw [List.rdropWhile, List.isEmpty_reverse]
    rw [trimRight, ih, hcons, hempty]
    cases cs.rdropWhile isBlank with
    | nil => rfl
    | cons d ds => rfl

/-- Nothing but white space at the ends is lost. -/
theorem trim_subset (cs : List Char) : trim cs ⊆ cs := by
  rw [trim, trimRight_eq_rdropWhile, trimLeft]
  exact List.Subset.trans (List.rdropWhile_prefix isBlank _).subset
    (List.dropWhile_suffix isBlank).subset

/-- A trimmed text has no white space at either end. -/
theorem unpadded_trim (cs : List Char) : Unpadded (trim cs) := by
  rw [trim, trimRight_eq_rdropWhile, trimLeft]
  constructor
  · intro c hc
    have hfirst := List.head?_dropWhile_not isBlank cs
    obtain ⟨more, hmore⟩ := List.rdropWhile_prefix isBlank (cs.dropWhile isBlank)
    obtain ⟨rest, hrest⟩ := List.head?_eq_some_iff.1 hc
    rw [hrest] at hmore
    rw [← hmore] at hfirst
    exact hfirst
  · intro c hc
    obtain ⟨hne, rfl⟩ := List.mem_getLast?_eq_getLast hc
    exact Bool.eq_false_iff.2 (List.rdropWhile_last_not isBlank (cs.dropWhile isBlank) hne)

/-- A text without white space at its ends is trimmed already. -/
theorem Unpadded.trim_eq {cs : List Char} (h : Unpadded cs) : trim cs = cs := by
  have hleft : trimLeft cs = cs := by
    cases cs with
    | nil => rfl
    | cons c rest => exact List.dropWhile_cons_of_neg (Bool.eq_false_iff.1 (h.first c rfl))
  rw [trim, hleft, trimRight_eq_rdropWhile, List.rdropWhile_eq_self_iff]
  intro hne
  exact Bool.eq_false_iff.1 (h.last _ (List.getLast?_eq_getLast_of_ne_nil hne))

/-- The characters of a text can be checked one by one. Deciding the quantifier instead would run over all
characters that there are. -/
theorem noBlank_of_all {word : List Char} (h : word.all (fun c => !isBlank c) = true) :
    ∀ c ∈ word, isBlank c = false := by
  intro c hc
  exact Bool.not_eq_true' _ ▸ List.all_eq_true.1 h c hc

/-- A text without any white space has none at its ends. -/
theorem Unpadded.of_word {word : List Char} (hword : ∀ c ∈ word, isBlank c = false) :
    Unpadded word where
  first c hc := hword c (List.mem_of_mem_head? hc)
  last c hc := hword c (List.mem_of_mem_getLast? hc)

/-- A text that starts with a word and ends with a text without white space at its ends. -/
theorem Unpadded.of_word_append {word cs : List Char} (hword : ∀ c ∈ word, isBlank c = false)
    (hsome : word ≠ []) (between : List Char) (h : Unpadded cs) (hne : cs ≠ []) :
    Unpadded (word ++ (between ++ cs)) where
  first c hc := by
    rw [List.head?_append_of_ne_nil word hsome] at hc
    exact hword c (List.mem_of_mem_head? hc)
  last c hc := by
    have hmore : between ++ cs ≠ [] := List.append_ne_nil_of_right_ne_nil between hne
    rw [List.getLast?_append_of_ne_nil word hmore, List.getLast?_append_of_ne_nil between hne] at hc
    exact h.last c hc

/-- Behind white space in a text without white space at its ends there is a character that is none. -/
theorem Unpadded.exists_noBlank {word cs : List Char} {b : Char} (h : Unpadded (word ++ b :: cs))
    (hb : isBlank b = true) : ∃ c ∈ cs, isBlank c = false := by
  have hlast := h.last
  rw [List.getLast?_append_of_ne_nil word (List.cons_ne_nil b cs)] at hlast
  cases cs with
  | nil =>
    rw [hlast b rfl] at hb
    cases hb
  | cons d ds =>
    rw [List.getLast?_cons_of_ne_nil (List.cons_ne_nil d ds)] at hlast
    have hsome := List.getLast?_eq_getLast_of_ne_nil (List.cons_ne_nil d ds)
    exact ⟨_, List.mem_of_mem_getLast? hsome, hlast _ hsome⟩

/-- A text without line feed and without white space at its ends can be a line. -/
theorem Unpadded.isLine {cs : List Char} (h : Unpadded cs) (hfeed : '\n' ∉ cs) : IsLine cs where
  no_lineFeed := hfeed
  no_return hreturn := by
    have hblank : isBlank '\r' = false := h.last '\r' hreturn
    revert hblank
    decide

/-- Something is left of a text with a character that is no white space. -/
theorem trim_ne_nil {cs : List Char} {c : Char} (hmem : c ∈ cs) (hc : isBlank c = false) :
    trim cs ≠ [] := by
  rw [trim, trimRight_eq_rdropWhile, trimLeft]
  intro hnil
  have hblank : isBlank c = true := by
    rw [← List.takeWhile_append_dropWhile (p := isBlank) (l := cs), List.mem_append] at hmem
    rcases hmem with hmem | hmem
    · exact List.mem_takeWhile_imp hmem
    · exact List.rdropWhile_eq_nil_iff.1 hnil c hmem
  rw [hc] at hblank
  cases hblank

/-! ### Words -/

/-- A word ends at the first white space. -/
theorem splitAtBlank_append {word : List Char} (hword : ∀ c ∈ word, isBlank c = false) {b : Char}
    (hb : isBlank b = true) (rest : List Char) :
    splitAtBlank (word ++ b :: rest) = (word, some rest) := by
  induction word with
  | nil => simp only [List.nil_append, splitAtBlank, hb, if_true]
  | cons c cs ih =>
    have hc := hword c List.mem_cons_self
    have hcs := ih fun d hd => hword d (List.mem_cons_of_mem _ hd)
    simp only [List.cons_append, splitAtBlank, hc, Bool.false_eq_true, if_false, hcs]

/-- A text without white space is one word. -/
theorem splitAtBlank_of_word {word : List Char} (hword : ∀ c ∈ word, isBlank c = false) :
    splitAtBlank word = (word, none) := by
  induction word with
  | nil => rfl
  | cons c cs ih =>
    have hc := hword c List.mem_cons_self
    have hcs := ih fun d hd => hword d (List.mem_cons_of_mem _ hd)
    simp only [splitAtBlank, hc, Bool.false_eq_true, if_false, hcs]

/-- What follows a word stands behind white space at the end of the text. -/
theorem eq_append_of_splitAtBlank {cs word rest : List Char}
    (h : splitAtBlank cs = (word, some rest)) :
    ∃ b, isBlank b = true ∧ cs = word ++ b :: rest := by
  induction cs generalizing word with
  | nil => cases h
  | cons c cs ih =>
    rw [splitAtBlank] at h
    split at h
    · rename_i hc
      cases h
      exact ⟨c, hc, rfl⟩
    · generalize hcut : splitAtBlank cs = cut at h
      obtain ⟨word', rest'⟩ := cut
      cases h
      obtain ⟨b, hb, rfl⟩ := ih hcut
      exact ⟨b, hb, rfl⟩

end SlotChain.Text

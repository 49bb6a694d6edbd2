import SlotChain.Proofs.ScriptParts

/-!
# The layout of scripts

A script may be laid out in many ways. Its lines may end with or without a carriage return, white space
may stand around a line and between a name and its value, and lines that hold nothing may stand anywhere.
Each of these can be changed, in any order and as often as one likes: the operations stay the same, and so
does the fault of a script that is refused. Its line moves down by the lines inserted before it.
-/

namespace SlotChain

namespace Script

/-! ### Changes of the layout -/

/-- White space that does not end a line. -/
structure Spacing (cs : List Char) : Prop where
  /-- There is nothing but white space. -/
  blank : ∀ c ∈ cs, Text.isBlank c = true
  /-- There is no line feed in it. -/
  no_lineFeed : '\n' ∉ cs

/-- A line that holds nothing. -/
inductive Silent : List Char → Prop
  /-- The line is blank. -/
  | blank {line : List Char} (h : Spacing line) : Silent line
  /-- The first character that is no white space is a number sign. -/
  | comment {margin rest : List Char} (h : Spacing margin) (hfeed : '\n' ∉ rest) :
    Silent (margin ++ '#' :: rest)

/-- The end of a line before the rest of a text. -/
inductive LineEnd : List Char → List Char → Prop
  /-- A line feed ends the line. -/
  | feed (behind : List Char) : LineEnd ['\n'] behind
  /-- So does a carriage return with a line feed. -/
  | returnFeed (behind : List Char) : LineEnd ['\r', '\n'] behind
  /-- The last line needs nothing of the kind. -/
  | nothing : LineEnd [] []

/-- A text has the same lines in another layout. -/
inductive Respaced : List Char → List Char → Prop
  /-- A carriage return is put before a line feed. -/
  | returnFeed (before behind : List Char) :
    Respaced (before ++ '\n' :: behind) (before ++ '\r' :: '\n' :: behind)
  /-- White space is added at the start of a line. -/
  | leftMargin {before behind margin : List Char} (hstart : Text.StartsLine before)
    (hmargin : Spacing margin) : Respaced (before ++ behind) (before ++ (margin ++ behind))
  /-- White space is added at the end of a line. -/
  | rightMargin {before ending behind margin : List Char} (hend : LineEnd ending behind)
    (hmargin : Spacing margin) :
    Respaced (before ++ (ending ++ behind)) (before ++ (margin ++ (ending ++ behind)))
  /-- The white space behind the first word of a line is replaced. In the line of an insertion it stands
  between the name and the value. -/
  | gap {before left word gap gap' behind : List Char} (hstart : Text.StartsLine before)
    (hleft : Spacing left) (hword : ∀ c ∈ word, Text.isBlank c = false) (hne : word ≠ [])
    (hgap : Spacing gap) (hsome : gap ≠ []) (hgap' : Spacing gap') (hsome' : gap' ≠ []) :
    Respaced (before ++ (left ++ (word ++ (gap ++ behind))))
      (before ++ (left ++ (word ++ (gap' ++ behind))))
  /-- A line feed is put behind the text, so that another line can follow the last one. -/
  | close (text : List Char) : Respaced text (text ++ ['\n'])

/-- A text is laid out anew by changes one after the other. For every line that is inserted it is noted
how many lines are before it at that time. -/
inductive Relaid (text : List Char) : List Nat → List Char → Prop
  /-- Nothing is changed. -/
  | refl : Relaid text [] text
  /-- The lines get another layout. -/
  | respace {places : List Nat} {text' text'' : List Char} (h : Relaid text places text')
    (hspace : Respaced text' text'') : Relaid text places text''
  /-- A line that holds nothing is inserted where a line starts. -/
  | insert {places : List Nat} {before behind line ending : List Char}
    (h : Relaid text places (before ++ behind)) (hstart : Text.StartsLine before) (hline : Silent line)
    (hend : LineEnd ending behind) :
    Relaid text (places ++ [before.count '\n']) (before ++ (line ++ (ending ++ behind)))

/-- How many of the lines inserted one after the other, each behind so many lines, come before line `n`.
Each of them makes it the line with the next number. -/
def insertedBefore (n : Nat) : List Nat → Nat
  | [] => 0
  | place :: places =>
    if place < n then insertedBefore (n + 1) places + 1 else insertedBefore n places

/-- Lines that are inserted later find the line where the others have moved it. -/
theorem insertedBefore_append (n : Nat) (places more : List Nat) :
    insertedBefore n (places ++ more) =
      insertedBefore n places + insertedBefore (n + insertedBefore n places) more := by
  induction places generalizing n with
  | nil => rw [List.nil_append, insertedBefore, Nat.zero_add, Nat.add_zero]
  | cons place rest ih =>
    rw [List.cons_append, insertedBefore, insertedBefore, ih, ih]
    split
    · have hnumber : n + 1 + insertedBefore (n + 1) rest = n + (insertedBefore (n + 1) rest + 1) := by
        omega
      rw [hnumber]
      omega
    · rfl

theorem insertedBefore_of_lt {n place : Nat} (h : place < n) : insertedBefore n [place] = 1 :=
  if_pos h

theorem insertedBefore_of_le {n place : Nat} (h : n ≤ place) : insertedBefore n [place] = 0 :=
  if_neg (Nat.not_lt.2 h)

/-! ### Lines in another layout -/

theorem Spacing.append {cs cs' : List Char} (h : Spacing cs) (h' : Spacing cs') :
    Spacing (cs ++ cs') where
  blank := List.forall_mem_append.2 ⟨h.blank, h'.blank⟩
  no_lineFeed := List.not_mem_append h.no_lineFeed h'.no_lineFeed

theorem spacing_nil : Spacing [] := ⟨List.forall_mem_nil _, List.not_mem_nil⟩

theorem spacing_return : Spacing ['\r'] := ⟨List.forall_mem_singleton.2 (by decide), by decide⟩

/-- There is no line feed in a word. -/
theorem lineFeed_notMem_word {word : List Char} (hword : ∀ c ∈ word, Text.isBlank c = false) :
    '\n' ∉ word := fun hmem => absurd (hword '\n' hmem) (by decide)

/-- White space around a line does not matter. -/
theorem Alike.margins {left right : List Char} (hleft : Spacing left) (hright : Spacing right)
    (line : List Char) : Alike line (left ++ (line ++ right)) :=
  .of_trim (Text.trim_padded hleft.blank hright.blank line)

theorem Alike.symm {line line' : List Char} (h : Alike line line') : Alike line' line :=
  ⟨h.effective.symm, h.reading.symm⟩

theorem Alike.trans {line line' line'' : List Char} (h : Alike line line')
    (h' : Alike line' line'') : Alike line line'' :=
  ⟨h'.effective.trans h.effective, h'.reading.trans h.reading⟩

section

variable {left word gap rest : List Char}

/-- A word with nothing but white space around it is all that trimming leaves. -/
theorem trim_word (hword : ∀ c ∈ word, Text.isBlank c = false) (hleft : Spacing left)
    (hgap : Spacing gap) (hrest : Text.trim rest = []) :
    Text.trim (left ++ (word ++ (gap ++ rest))) = word := by
  have hblank : ∀ c ∈ rest, Text.isBlank c = true := by
    intro c hc
    by_contra hne
    exact Text.trim_ne_nil hc (Bool.eq_false_iff.2 hne) hrest
  have hright : ∀ c ∈ gap ++ rest, Text.isBlank c = true :=
    List.forall_mem_append.2 ⟨hgap.blank, hblank⟩
  rw [Text.trim_padded hleft.blank hright, (Text.Unpadded.of_word hword).trim_eq]

/-- A word with more behind it keeps the white space between them when it is trimmed. -/
theorem exists_trim_words (hword : ∀ c ∈ word, Text.isBlank c = false) (hne : word ≠ [])
    (hleft : Spacing left) (hrest : Text.trim rest ≠ []) :
    ∃ between, (∀ c ∈ between, Text.isBlank c = true) ∧ ∀ gap,
      Text.trim (left ++ (word ++ (gap ++ rest))) = word ++ (gap ++ between ++ Text.trim rest) := by
  obtain ⟨⟨between, right, hcut, hbetween, hright⟩, hcore⟩ :=
    Text.trims_iff.2 (Eq.refl (Text.trim rest))
  refine ⟨between, hbetween, fun gap => ?_⟩
  have hunpadded : Text.Unpadded (word ++ (gap ++ between ++ Text.trim rest)) :=
    .of_word_append hword hne (gap ++ between) hcore hrest
  have hwhole : left ++ (word ++ (gap ++ rest)) =
      left ++ ((word ++ (gap ++ between ++ Text.trim rest)) ++ right) := by
    conv_lhs => rw [hcut]
    simp only [List.append_assoc]
  rw [hwhole, Text.trim_padded hleft.blank hright, hunpadded.trim_eq]

/-- How a line is read does not depend on what white space stands behind its first word. -/
theorem readLine_words {space core : List Char} (hword : ∀ c ∈ word, Text.isBlank c = false)
    (hspace : ∀ c ∈ space, Text.isBlank c = true) (hsome : space ≠ []) (hcore : Text.Unpadded core) :
    readLine (word ++ (space ++ core)) = readLine (word ++ ([' '] ++ core)) := by
  obtain ⟨b, more, rfl⟩ := List.exists_cons_of_ne_nil hsome
  obtain ⟨hb, hmore⟩ := List.forall_mem_cons.1 hspace
  have htrim : Text.trim (more ++ core) = core := by
    have hpadded := Text.trim_padded hmore (List.forall_mem_nil _) core
    rw [List.append_nil, hcore.trim_eq] at hpadded
    exact hpadded
  rw [readLine, readLine, List.cons_append, List.cons_append, List.nil_append,
    Text.splitAtBlank_append hword hb, Text.splitAtBlank_append hword (by decide)]
  dsimp only
  cases Verb.ofName? (String.ofList word) with
  | none => rfl
  | some verb =>
    cases verb with
    | complete op => rfl
    | insertion i => simp only [htrim, hcore.trim_eq]

/-- Whether a line is passed over depends on its first word only. -/
theorem isEffective_append (hne : word ≠ []) (rest : List Char) :
    isEffective (word ++ rest) = isEffective word := by
  obtain ⟨c, cs, rfl⟩ := List.exists_cons_of_ne_nil hne
  rfl

/-- White space behind the first word of a line may be any other white space. -/
theorem Alike.of_words {gap' : List Char} (hword : ∀ c ∈ word, Text.isBlank c = false) (hne : word ≠ [])
    (hleft : Spacing left) (hgap : Spacing gap) (hsome : gap ≠ []) (hgap' : Spacing gap')
    (hsome' : gap' ≠ []) (rest : List Char) :
    Alike (left ++ (word ++ (gap ++ rest))) (left ++ (word ++ (gap' ++ rest))) := by
  by_cases hrest : Text.trim rest = []
  · exact .of_trim ((trim_word hword hleft hgap' hrest).trans (trim_word hword hleft hgap hrest).symm)
  · obtain ⟨between, hbetween, htrim⟩ := exists_trim_words hword hne hleft hrest
    have hread : ∀ g, Spacing g → g ≠ [] →
        readLine (word ++ (g ++ between ++ Text.trim rest)) =
          readLine (word ++ ([' '] ++ Text.trim rest)) := by
      intro g hg hgne
      have hblank : ∀ c ∈ g ++ between, Text.isBlank c = true :=
        List.forall_mem_append.2 ⟨hg.blank, hbetween⟩
      exact readLine_words hword hblank (List.append_ne_nil_of_left_ne_nil hgne between)
        (Text.unpadded_trim rest)
    constructor
    · rw [htrim, htrim, isEffective_append hne, isEffective_append hne]
    · rw [htrim, htrim, hread gap' hgap' hsome', hread gap hgap hsome]

end

/-! ### Texts in another layout -/

/-- Every text ends with a line that has not been ended, which may be empty. -/
theorem exists_lastLine (cs : List Char) :
    ∃ before line, cs = before ++ line ∧ Text.StartsLine before ∧ '\n' ∉ line := by
  refine ⟨cs.rdropWhile (· != '\n'), cs.rtakeWhile (· != '\n'),
    List.rdropWhile_append_rtakeWhile.symm, ?_, ?_⟩
  · intro c hc
    obtain ⟨hne, rfl⟩ := List.mem_getLast?_eq_getLast hc
    have hlast := List.rdropWhile_last_not (· != '\n') cs hne
    rwa [bne_iff_ne, not_not] at hlast
  · intro hmem
    have hall := List.mem_rtakeWhile_imp hmem
    exact absurd hall (by decide)

/-- Every text starts with a line, which a line feed or the end of the text ends. -/
theorem exists_firstLine (cs : List Char) :
    ∃ line behind, cs = line ++ behind ∧ '\n' ∉ line ∧ ∀ c ∈ behind.head?, c = '\n' := by
  refine ⟨cs.takeWhile (· != '\n'), cs.dropWhile (· != '\n'),
    List.takeWhile_append_dropWhile.symm, ?_, ?_⟩
  · intro hmem
    have hall := List.mem_takeWhile_imp hmem
    exact absurd hall (by decide)
  · intro c hc
    have hfirst := List.head?_dropWhile_not (· != '\n') cs
    rw [Option.mem_def.1 hc] at hfirst
    have hfeed : (c != '\n') = false := hfirst
    rwa [bne_eq_false_iff_eq] at hfeed

/-- A line in its place may be replaced by one that is read alike. -/
theorem readLines_replace {before line line' behind : List Char} (hstart : Text.StartsLine before)
    (hline : '\n' ∉ line) (hline' : '\n' ∉ line') (hend : ∀ c ∈ behind.head?, c = '\n')
    (h : Alike line line') (n : Nat) :
    readLines n ((before ++ (line' ++ behind)).splitOn '\n') =
      readLines n ((before ++ (line ++ behind)).splitOn '\n') := by
  obtain ⟨pieces, -, hpieces⟩ := hstart.exists_splitOn
  have hsame : ∀ ls, List.Forall₂ Alike ls ls := fun ls => List.forall₂_same.2 fun l _ => .refl l
  rw [hpieces, hpieces]
  refine readLines_congr (List.rel_append (hsame pieces) ?_) n
  cases behind with
  | nil =>
    rw [List.append_nil, List.append_nil, List.splitOn_eq_singleton hline,
      List.splitOn_eq_singleton hline']
    exact .cons h .nil
  | cons c rest =>
    have hc : c = '\n' := hend c rfl
    subst hc
    rw [List.splitOn_append_cons_self_of_not_mem hline,
      List.splitOn_append_cons_self_of_not_mem hline']
    exact .cons h (hsame _)

/-- The end of a line consists of white space that does not matter and of what no line can hold. -/
theorem LineEnd.exists_cut {ending behind : List Char} (h : LineEnd ending behind) :
    ∃ margin rest, Spacing margin ∧ (∀ c ∈ rest.head?, c = '\n') ∧
      ending ++ behind = margin ++ rest := by
  cases h with
  | feed => exact ⟨[], '\n' :: behind, spacing_nil, fun c hc => (Option.some.inj hc).symm, rfl⟩
  | returnFeed =>
    exact ⟨['\r'], '\n' :: behind, spacing_return, fun c hc => (Option.some.inj hc).symm, rfl⟩
  | nothing => exact ⟨[], [], spacing_nil, (fun c hc => nomatch hc), rfl⟩

/-- A text in another layout is read alike. -/
theorem Respaced.readLines_eq {text text' : List Char} (h : Respaced text text') (n : Nat) :
    readLines n (text'.splitOn '\n') = readLines n (text.splitOn '\n') := by
  -- All changes but the last replace one line, so each case finds the line and what stands around it.
  cases h with
  | returnFeed before behind =>
    obtain ⟨front, line, rfl, hstart, hline⟩ := exists_lastLine before
    have hline' : '\n' ∉ line ++ ['\r'] := List.not_mem_append hline spacing_return.no_lineFeed
    have halike : Alike line (line ++ ['\r']) := .margins spacing_nil spacing_return line
    have hend : ∀ c ∈ ('\n' :: behind).head?, c = '\n' := fun c hc => (Option.some.inj hc).symm
    have hread := readLines_replace hstart hline hline' hend halike n
    simpa only [List.append_assoc, List.singleton_append] using hread
  | @leftMargin before behind margin hstart hmargin =>
    obtain ⟨line, rest, rfl, hline, hend⟩ := exists_firstLine behind
    have hline' : '\n' ∉ margin ++ line := List.not_mem_append hmargin.no_lineFeed hline
    have halike : Alike line (margin ++ line) := by
      have hmargins := Alike.margins hmargin spacing_nil line
      rwa [List.append_nil] at hmargins
    have hread := readLines_replace hstart hline hline' hend halike n
    rwa [List.append_assoc] at hread
  | @rightMargin before ending behind margin hend hmargin =>
    obtain ⟨front, line, rfl, hstart, hline⟩ := exists_lastLine before
    obtain ⟨closing, rest, hclosing, hfeed, hcut⟩ := hend.exists_cut
    have hspace : Spacing (margin ++ closing) := hmargin.append hclosing
    have halike : Alike (line ++ closing) (line ++ (margin ++ closing)) :=
      (Alike.margins spacing_nil hclosing line).symm.trans (.margins spacing_nil hspace line)
    have hread := readLines_replace hstart (List.not_mem_append hline hclosing.no_lineFeed)
      (List.not_mem_append hline hspace.no_lineFeed) hfeed halike n
    rw [hcut]
    simpa only [List.append_assoc] using hread
  | @gap before left word gap gap' behind hstart hleft hword hne hgap hsome hgap' hsome' =>
    obtain ⟨rest, behind, rfl, hrest, hend⟩ := exists_firstLine behind
    have hline : ∀ g, Spacing g → '\n' ∉ left ++ (word ++ (g ++ rest)) := fun g hg =>
      List.not_mem_append hleft.no_lineFeed
        (List.not_mem_append (lineFeed_notMem_word hword) (List.not_mem_append hg.no_lineFeed hrest))
    have halike := Alike.of_words hword hne hleft hgap hsome hgap' hsome' rest
    have hread := readLines_replace hstart (hline gap hgap) (hline gap' hgap') hend halike n
    simpa only [List.append_assoc] using hread
  | close text =>
    rw [List.splitOn_append_cons_self, readLines_append]
    cases readLines n (text.splitOn '\n') with
    | error e => rfl
    | ok ops => exact congrArg Except.ok (List.append_nil ops)

/-! ### Lines that hold nothing -/

/-- White space at the end of a line that holds nothing leaves it so. -/
theorem Silent.append {line margin : List Char} (h : Silent line) (hmargin : Spacing margin) :
    Silent (line ++ margin) := by
  cases h with
  | blank hline => exact .blank (hline.append hmargin)
  | comment hleft hfeed =>
    rw [List.append_assoc, List.cons_append]
    exact .comment hleft (List.not_mem_append hfeed hmargin.no_lineFeed)

theorem Silent.no_lineFeed {line : List Char} (h : Silent line) : '\n' ∉ line := by
  cases h with
  | blank hline => exact hline.no_lineFeed
  | comment hleft hfeed =>
    rw [List.mem_append, List.mem_cons, not_or, not_or]
    exact ⟨hleft.no_lineFeed, by decide, hfeed⟩

/-- A line that holds nothing is passed over. -/
theorem Silent.isEffective_eq {line : List Char} (h : Silent line) :
    isEffective (Text.trim line) = false := by
  cases h with
  | blank hline =>
    have htrim := Text.trim_padded hline.blank (List.forall_mem_nil _) []
    rw [List.append_nil, List.append_nil] at htrim
    rw [htrim]
    rfl
  | @comment margin rest hmargin hfeed =>
    have htrim := Text.trim_padded hmargin.blank (List.forall_mem_nil _) ('#' :: rest)
    rw [List.append_nil] at htrim
    have hleft : Text.trimLeft ('#' :: rest) = '#' :: rest := List.dropWhile_cons_of_neg (by decide)
    rw [htrim, Text.trim, hleft, Text.trimRight]
    cases Text.trimRight rest <;> rfl

theorem Silent.readLines_cons {line : List Char} (h : Silent line) (n : Nat) (ls : List (List Char)) :
    readLines n (line :: ls) = readLines (n + 1) ls := by
  rw [readLines]
  exact if_neg (Bool.eq_false_iff.1 h.isEffective_eq)

/-- A line that holds nothing only moves the lines behind it. -/
theorem Silent.readLines_eq {line ending behind : List Char} (h : Silent line)
    (hend : LineEnd ending behind) (n : Nat) :
    readLines n ((line ++ (ending ++ behind)).splitOn '\n') =
      readLines (n + 1) (behind.splitOn '\n') := by
  cases hend with
  | feed =>
    rw [List.singleton_append, List.splitOn_append_cons_self_of_not_mem h.no_lineFeed,
      h.readLines_cons]
  | returnFeed =>
    have hreturn : Silent (line ++ ['\r']) := h.append spacing_return
    have hcut : line ++ (['\r', '\n'] ++ behind) = (line ++ ['\r']) ++ '\n' :: behind := by
      rw [List.append_assoc]
      rfl
    rw [hcut, List.splitOn_append_cons_self_of_not_mem hreturn.no_lineFeed, hreturn.readLines_cons]
  | nothing =>
    rw [List.append_nil, List.append_nil, List.splitOn_eq_singleton h.no_lineFeed, h.readLines_cons]
    rfl

/-- A line that is inserted moves the fault of a script down if it comes before it. -/
theorem readLines_insert {before behind line ending : List Char} (hstart : Text.StartsLine before)
    (hline : Silent line) (hend : LineEnd ending behind) :
    readLines 1 ((before ++ (line ++ (ending ++ behind))).splitOn '\n') =
      (readLines 1 ((before ++ behind).splitOn '\n')).mapError
        (CommandError.renumber fun n => n + insertedBefore n [before.count '\n']) := by
  obtain ⟨pieces, hlength, hpieces⟩ := hstart.exists_splitOn
  rw [hpieces, hpieces, readLines_append, readLines_append, hline.readLines_eq hend, hlength]
  cases hfront : readLines 1 pieces with
  | error e =>
    obtain ⟨k, source, rfl, -, hlt⟩ := exists_line_of_readLines hfront
    have hnone : insertedBefore k [before.count '\n'] = 0 := insertedBefore_of_le (by omega)
    simp only [Except.mapError, CommandError.renumber, hnone, Nat.add_zero]
  | ok ops =>
    have hmoved := readLines_add 1 (1 + before.count '\n') (behind.splitOn '\n')
    rw [Nat.add_comm] at hmoved
    dsimp only
    rw [hmoved]
    cases hbehind : readLines (1 + before.count '\n') (behind.splitOn '\n') with
    | error e =>
      obtain ⟨k, source, rfl, hle, -⟩ := exists_line_of_readLines hbehind
      have hone : insertedBefore k [before.count '\n'] = 1 := insertedBefore_of_lt (by omega)
      simp only [Except.map, Except.mapError, CommandError.renumber, hone, Nat.add_comm]
    | ok more => rfl

/-! ### Scripts in another layout -/

/-- A text that is laid out anew is read alike, and refused for the line where the fault has moved. -/
theorem Relaid.readLines_eq {text text' : List Char} {places : List Nat} (h : Relaid text places text') :
    readLines 1 (text'.splitOn '\n') = (readLines 1 (text.splitOn '\n')).mapError
      (CommandError.renumber fun n => n + insertedBefore n places) := by
  induction h with
  | refl =>
    cases hread : readLines 1 (text.splitOn '\n') with
    | error e =>
      obtain ⟨k, source, rfl, -, -⟩ := exists_line_of_readLines hread
      rfl
    | ok ops => rfl
  | respace _ hspace ih => rw [hspace.readLines_eq, ih]
  | insert _ hstart hline hend ih =>
    rw [readLines_insert hstart hline hend, ih]
    cases hread : readLines 1 (text.splitOn '\n') with
    | error e =>
      obtain ⟨k, source, rfl, -, -⟩ := exists_line_of_readLines hread
      simp only [Except.mapError, CommandError.renumber, insertedBefore_append, Nat.add_assoc]
    | ok ops => rfl

/-- The layout of a script does not matter. However a text is laid out anew, it holds the same operations,
or is refused for the same fault. The number of its line has grown by the number of lines inserted before
it. -/
theorem parse_relaid {text text' : String} {places : List Nat}
    (h : Relaid text.toList places text'.toList) :
    (∀ ops, parse text = .ok ops → parse text' = .ok ops) ∧
      ∀ e, parse text = .error e → ∃ n source, e = .scriptLine n source ∧
        parse text' = .error (.scriptLine (n + insertedBefore n places) source) := by
  have hread := h.readLines_eq
  rw [← parse_eq_readLines, ← parse_eq_readLines] at hread
  refine ⟨fun ops hops => ?_, fun e he => ?_⟩
  · rw [hread, hops]
    rfl
  · obtain ⟨n, source, rfl⟩ := exists_line_of_parse he
    refine ⟨n, source, rfl, ?_⟩
    rw [hread, he]
    rfl

/-- Every kind of change, one after the other. The comment in front moves the fault down by one line, and
the blank line behind it does not. -/
theorem parse_relaid_all_changes :
    Relaid "append  a\npop\n".toList [0, 3] "# note\nappend\ta\r\n\u3000pop\n ".toList ∧
      parse "append  a\npop\n" = .error (.scriptLine 2 (.unknownOp "pop")) ∧
      insertedBefore 2 [0, 3] = 1 ∧
      parse "# note\nappend\ta\r\n\u3000pop\n " = .error (.scriptLine 3 (.unknownOp "pop")) := by
  have hone : Spacing " ".toList := ⟨List.all_eq_true.1 (by decide +kernel), by decide +kernel⟩
  have htwo : Spacing "  ".toList := ⟨List.all_eq_true.1 (by decide +kernel), by decide +kernel⟩
  have htab : Spacing "\t".toList := ⟨List.all_eq_true.1 (by decide +kernel), by decide +kernel⟩
  have hwide : Spacing "\u3000".toList := ⟨List.all_eq_true.1 (by decide +kernel), by decide +kernel⟩
  have hnothing : Text.StartsLine [] := fun c hc => nomatch hc
  have hgap : Relaid "append  a\npop\n".toList [] "append\ta\npop\n".toList := by
    have hword : ∀ c ∈ "append".toList, Text.isBlank c = false :=
      Text.noBlank_of_all (by decide +kernel)
    have hspace : Respaced
        ([] ++ ([] ++ ("append".toList ++ ("  ".toList ++ "a\npop\n".toList))))
        ([] ++ ([] ++ ("append".toList ++ ("\t".toList ++ "a\npop\n".toList)))) :=
      .gap hnothing spacing_nil hword (by decide +kernel) htwo (by decide +kernel) htab
        (by decide +kernel)
    exact .respace .refl hspace
  have hreturn : Relaid "append  a\npop\n".toList [] "append\ta\r\npop\n".toList :=
    .respace hgap (.returnFeed "append\ta".toList "pop\n".toList)
  have hmargin : Relaid "append  a\npop\n".toList [] "append\ta\r\n\u3000pop\n".toList := by
    have hstart : Text.StartsLine "append\ta\r\n".toList := .of_getLast? (by decide +kernel)
    have hspace : Respaced ("append\ta\r\n".toList ++ "pop\n".toList)
        ("append\ta\r\n".toList ++ ("\u3000".toList ++ "pop\n".toList)) :=
      .leftMargin hstart hwide
    exact .respace hreturn hspace
  have hcomment : Relaid "append  a\npop\n".toList [0]
      "# note\nappend\ta\r\n\u3000pop\n".toList := by
    have hline : Silent ([] ++ '#' :: " note".toList) := .comment spacing_nil (by decide +kernel)
    have htext : "# note\nappend\ta\r\n\u3000pop\n".toList =
        [] ++ (([] ++ '#' :: " note".toList) ++ (['\n'] ++ "append\ta\r\n\u3000pop\n".toList)) := by
      decide +kernel
    rw [htext]
    exact .insert hmargin hnothing hline (.feed _)
  have hall : Relaid "append  a\npop\n".toList [0, 3]
      "# note\nappend\ta\r\n\u3000pop\n ".toList := by
    have hstart : Text.StartsLine "# note\nappend\ta\r\n\u3000pop\n".toList :=
      .of_getLast? (by decide +kernel)
    have hinsert : Relaid "append  a\npop\n".toList
        ([0] ++ ["# note\nappend\ta\r\n\u3000pop\n".toList.count '\n'])
        ("# note\nappend\ta\r\n\u3000pop\n".toList ++ (" ".toList ++ ([] ++ []))) :=
      .insert hcomment hstart (.blank hone) .nothing
    exact hinsert
  have hbad : parse "append  a\npop\n" = .error (.scriptLine 2 (.unknownOp "pop")) := by
    decide +kernel
  obtain ⟨n, source, heq, hmoved⟩ := (parse_relaid hall).2 _ hbad
  cases heq
  exact ⟨hall, hbad, rfl, hmoved⟩

end Script

end SlotChain

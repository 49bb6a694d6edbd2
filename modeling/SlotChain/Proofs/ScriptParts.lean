import SlotChain.Proofs.ScriptGrammar

/-!
# Scripts in parts

A script can be read in parts. To read it, its text may as well be cut at every line feed: a carriage
return at the end of a line is white space, and nothing behind the last line feed is a blank line. So a
part that ends with a line feed is read by itself. If it is refused, the whole script is refused in the
same way; otherwise what follows is read as it would be alone, and only its lines have other numbers.
-/

namespace SlotChain

namespace Text

/-- A line starts behind a text that is empty or ends with a line feed. -/
def StartsLine (before : List Char) : Prop := ∀ c ∈ before.getLast?, c = '\n'

theorem StartsLine.of_getLast? {before : List Char} (h : before.getLast? = some '\n') :
    StartsLine before := by
  intro c hc
  rw [Option.mem_def, h] at hc
  exact (Option.some.inj hc).symm

/-- White space around a text is lost like the margins that it has. -/
theorem trim_padded {left right : List Char} (hleft : ∀ c ∈ left, isBlank c = true)
    (hright : ∀ c ∈ right, isBlank c = true) (cs : List Char) :
    trim (left ++ (cs ++ right)) = trim cs := by
  obtain ⟨⟨left', right', hcs, hleft', hright'⟩, hcore⟩ := trims_iff.2 (Eq.refl (trim cs))
  refine trims_iff.1 ⟨⟨left ++ left', right' ++ right, ?_, ?_, ?_⟩, hcore⟩
  · calc
      left ++ (cs ++ right)
        = left ++ ((left' ++ (trim cs ++ right')) ++ right) := by rw [← hcs]
      _ = left ++ left' ++ (trim cs ++ (right' ++ right)) := by simp only [List.append_assoc]
  · exact List.forall_mem_append.2 ⟨hleft, hleft'⟩
  · exact List.forall_mem_append.2 ⟨hright', hright⟩

/-- Where a line starts, the pieces before it do not depend on what follows. There are as many of them as
line feeds. -/
theorem StartsLine.exists_splitOn {before : List Char} (h : StartsLine before) :
    ∃ pieces, pieces.length = before.count '\n' ∧
      ∀ behind, (before ++ behind).splitOn '\n' = pieces ++ behind.splitOn '\n' := by
  rcases List.eq_nil_or_concat before with rfl | ⟨front, c, rfl⟩
  · exact ⟨[], rfl, fun behind => rfl⟩
  · rw [List.concat_eq_append] at h ⊢
    have hc : c = '\n' := h c List.getLast?_concat
    subst hc
    refine ⟨front.splitOn '\n', ?_, fun behind => ?_⟩
    · rw [length_splitOn, List.count_append, List.count_singleton_self]
    · rw [List.append_assoc, List.singleton_append, List.splitOn_append_cons_self]

end Text

/-- An error whose line, if it is one of a script, has got another number. -/
def CommandError.renumber (f : Nat → Nat) : CommandError → CommandError
  | scriptLine line source => scriptLine (f line) source
  | e => e

namespace Script

/-! ### Lines that are read alike -/

/-- Reading does not tell two lines apart. -/
structure Alike (line line' : List Char) : Prop where
  /-- Both are passed over, or neither is. -/
  effective : isEffective (Text.trim line') = isEffective (Text.trim line)
  /-- Both hold the same operation or the same fault. -/
  reading : readLine (Text.trim line') = readLine (Text.trim line)

theorem Alike.refl (line : List Char) : Alike line line := ⟨rfl, rfl⟩

/-- Margins do not matter. -/
theorem Alike.of_trim {line line' : List Char} (h : Text.trim line' = Text.trim line) :
    Alike line line' := ⟨by rw [h], by rw [h]⟩

/-- Lines that are alike one by one are read alike. -/
theorem readLines_congr {ls ls' : List (List Char)} (h : List.Forall₂ Alike ls ls') (n : Nat) :
    readLines n ls' = readLines n ls := by
  induction h generalizing n with
  | nil => rfl
  | cons hline _ ih => rw [readLines, readLines, hline.effective, hline.reading, ih]

/-- A blank line behind the last one changes nothing. -/
theorem readLines_lines (cs : List Char) (n : Nat) :
    readLines n (cs.splitOn '\n') = readLines n (Text.lines cs) := by
  have hcut : Text.Cut cs (Text.lines cs) := Text.cut_iff.2 rfl
  generalize Text.lines cs = ls at hcut
  induction hcut generalizing n with
  | nothing => rfl
  | last hfeed hne => rw [List.splitOn_eq_singleton hfeed]
  | feed hfeed hreturn _ ih =>
    rw [List.splitOn_append_cons_self_of_not_mem hfeed, readLines, readLines, ih]
  | @returnFeed line rest ls hfeed _ ih =>
    have hreturn : '\n' ∉ line ++ ['\r'] := List.not_mem_append hfeed (by decide)
    have htrim : Text.trim (line ++ ['\r']) = Text.trim line :=
      Text.trim_padded (List.forall_mem_nil _) (List.forall_mem_singleton.2 (by decide)) line
    have hpieces : (line ++ '\r' :: '\n' :: rest).splitOn '\n' =
        (line ++ ['\r']) :: rest.splitOn '\n' := by
      rw [← List.splitOn_append_cons_self_of_not_mem hreturn, List.append_assoc,
        List.singleton_append]
    rw [hpieces, readLines, readLines, htrim, ih]

/-- A script is read from the pieces between its line feeds. -/
theorem parse_eq_readLines (text : String) : parse text = readLines 1 (text.toList.splitOn '\n') := by
  rw [parse, readLines_lines]

/-! ### Numbers of lines -/

/-- Lines are refused for one of them. -/
theorem exists_line_of_readLines {n : Nat} {ls : List (List Char)} {e : CommandError}
    (h : readLines n ls = .error e) :
    ∃ k source, e = .scriptLine k source ∧ n ≤ k ∧ k < n + ls.length := by
  induction ls generalizing n e with
  | nil => cases h
  | cons line rest ih =>
    rw [List.length_cons]
    have hrest : ∀ e, readLines (n + 1) rest = .error e →
        ∃ k source, e = .scriptLine k source ∧ n ≤ k ∧ k < n + (rest.length + 1) := by
      intro e he
      obtain ⟨k, source, rfl, hle, hlt⟩ := ih he
      exact ⟨k, source, rfl, by omega, by omega⟩
    rw [readLines] at h
    split at h
    · cases hline : readLine (Text.trim line) with
      | error source =>
        rw [hline] at h
        cases h
        exact ⟨n, source, rfl, by omega, by omega⟩
      | ok op =>
        cases hmore : readLines (n + 1) rest with
        | error e' =>
          rw [hline, hmore] at h
          cases h
          exact hrest e hmore
        | ok more =>
          rw [hline, hmore] at h
          cases h
    · exact hrest e h

/-- So are scripts. -/
theorem exists_line_of_parse {text : String} {e : CommandError} (h : parse text = .error e) :
    ∃ k source, e = .scriptLine k source := by
  rw [parse_eq_readLines] at h
  obtain ⟨k, source, he, -, -⟩ := exists_line_of_readLines h
  exact ⟨k, source, he⟩

/-- Lines that are counted from another number are read in the same way, and refused for the same line. -/
theorem readLines_add (m n : Nat) (ls : List (List Char)) :
    readLines (m + n) ls = (readLines n ls).mapError (CommandError.renumber (m + ·)) := by
  induction ls generalizing n with
  | nil => rfl
  | cons line rest ih =>
    have hrest := ih (n + 1)
    rw [← Nat.add_assoc] at hrest
    rw [readLines, readLines, hrest]
    split
    · cases readLine (Text.trim line) with
      | error e => rfl
      | ok op => cases readLines (n + 1) rest <;> rfl
    · rfl

/-- Lines in front are read first. -/
theorem readLines_append (n : Nat) (front behind : List (List Char)) :
    readLines n (front ++ behind) =
      match readLines n front with
      | .error e => .error e
      | .ok ops => (readLines (n + front.length) behind).map (ops ++ ·) := by
  induction front generalizing n with
  | nil =>
    rw [List.nil_append, readLines, List.length_nil, Nat.add_zero]
    cases readLines n behind <;> rfl
  | cons line rest ih =>
    have hnumber : n + (line :: rest).length = n + 1 + rest.length := by
      rw [List.length_cons]
      omega
    rw [List.cons_append, readLines, readLines, ih, hnumber]
    split
    · cases readLine (Text.trim line) with
      | error e => rfl
      | ok op =>
        cases readLines (n + 1) rest with
        | error e => rfl
        | ok ops => cases readLines (n + 1 + rest.length) behind <;> rfl
    · rfl

/-! ### Scripts one behind the other -/

/-- A script behind a text that ends with a line feed, or is empty, is read as it would be alone, once the
text before it has been read. Only the numbers of its lines grow by the number of line feeds before it. -/
theorem parse_append {front : String} (hfront : Text.StartsLine front.toList) (behind : String) :
    (∀ e, parse front = .error e → parse (front ++ behind) = .error e) ∧
      ∀ ops, parse front = .ok ops →
        (∀ e, parse behind = .error e → ∃ k source, e = .scriptLine k source ∧
            parse (front ++ behind) = .error (.scriptLine (front.toList.count '\n' + k) source)) ∧
          ∀ more, parse behind = .ok more → parse (front ++ behind) = .ok (ops ++ more) := by
  obtain ⟨pieces, hlength, hpieces⟩ := hfront.exists_splitOn
  have hwhole : parse (front ++ behind) =
      match readLines 1 pieces with
      | .error e => .error e
      | .ok ops => ((parse behind).mapError
          (CommandError.renumber (front.toList.count '\n' + ·))).map (ops ++ ·) := by
    rw [parse_eq_readLines, String.toList_append, hpieces, readLines_append, hlength, Nat.add_comm 1,
      readLines_add, ← parse_eq_readLines]
  have halone : parse front = readLines 1 pieces := by
    have hblank := hpieces []
    rw [List.append_nil, List.splitOn_nil] at hblank
    rw [parse_eq_readLines, hblank, readLines_append]
    cases readLines 1 pieces with
    | error e => rfl
    | ok ops => exact congrArg Except.ok (List.append_nil ops)
  rw [← halone] at hwhole
  refine ⟨fun e he => ?_, fun ops hops => ⟨fun e he => ?_, fun more hmore => ?_⟩⟩
  · rw [hwhole, he]
  · obtain ⟨k, source, rfl⟩ := exists_line_of_parse he
    refine ⟨k, source, rfl, ?_⟩
    rw [hwhole, hops, he]
    rfl
  · rw [hwhole, hops, hmore]
    rfl

-- A text whose last line is not ended is not such a part: what follows it belongs to that line.
example : parse "append a" = .ok [.append "a"] ∧ parse "len" = .ok [.len] ∧
    parse ("append a" ++ "len") = .ok [.append "alen"] := by decide +kernel

/-- The part in front has a comment, a blank line and a line that ends with a carriage return. Its lines
count, whether they are passed over or not. -/
theorem parse_append_comment :
    Text.StartsLine "# note\n\nlen\r\n".toList ∧ parse "# note\n\nlen\r\n" = .ok [.len] ∧
      parse "\r\nprepend" = .error (.scriptLine 2 (.missingValue .prepend)) ∧
      parse ("# note\n\nlen\r\n" ++ "\r\nprepend") = .error (.scriptLine 5 (.missingValue .prepend)) ∧
      parse ("# note\n\nlen\r\n" ++ " print") = .ok [.len, .print] := by
  have hfront : Text.StartsLine "# note\n\nlen\r\n".toList := .of_getLast? (by decide +kernel)
  have hops : parse "# note\n\nlen\r\n" = .ok [.len] := by decide +kernel
  have herror : parse "\r\nprepend" = .error (.scriptLine 2 (.missingValue .prepend)) := by
    decide +kernel
  obtain ⟨k, source, heq, hwhole⟩ := ((parse_append hfront "\r\nprepend").2 _ hops).1 _ herror
  cases heq
  have hcount : "# note\n\nlen\r\n".toList.count '\n' = 3 := by decide +kernel
  rw [hcount] at hwhole
  exact ⟨hfront, hops, herror, hwhole,
    ((parse_append hfront " print").2 _ hops).2 [.print] (by decide +kernel)⟩

end Script

end SlotChain

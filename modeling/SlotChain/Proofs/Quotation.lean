import SlotChain.Json.Quoted
import SlotChain.Text.Quoted
import Mathlib.Data.List.Basic

/-!
# Quoted text can be read back

A reader goes through a quoted text once, from its first quotation mark to its last, and gives back the
text between them. So quoting loses nothing, whatever characters a text holds, and two texts are never
quoted alike. Line feeds are among the characters that are written by a name, so a quoted text always
stays on one line.
-/

namespace SlotChain.Text

/-- Where a reader of a quoted text stands. -/
inductive QuotePlace where
  /-- Between two characters of the text. -/
  | between
  /-- Behind a backslash. -/
  | escape
  /-- Behind the letter that announces a code point. -/
  | code
  /-- Between the braces of a code point, with the value of its digits so far. -/
  | digits (value : Nat)

/-- The character that a character behind a backslash stands for. -/
def escaped? (c : Char) : Option Char :=
  if c = '"' then some '"'
  else if c = '\\' then some '\\'
  else if c = '0' then some '\x00'
  else if c = 't' then some '\t'
  else if c = 'n' then some '\n'
  else if c = 'r' then some '\r'
  else none

/-- Read what is left of a quoted text, up to its last quotation mark. -/
def unescape : QuotePlace → List Char → Option (List Char)
  | _, [] => none
  | .between, c :: cs =>
    if c = '"' then if cs = [] then some [] else none
    else if c = '\\' then unescape .escape cs
    else (unescape .between cs).map (c :: ·)
  | .escape, c :: cs =>
    if c = 'u' then unescape .code cs
    else
      match escaped? c with
      | some d => (unescape .between cs).map (d :: ·)
      | none => none
  | .code, c :: cs => if c = '\x7b' then unescape (.digits 0) cs else none
  | .digits value, c :: cs =>
    if c = '\x7d' then (unescape .between cs).map (Char.ofNat value :: ·)
    else
      match Json.hexValue? c with
      | some d => unescape (.digits (value * 16 + d)) cs
      | none => none

/-- Read a quoted text. -/
def unquote : List Char → Option (List Char)
  | [] => none
  | c :: cs => if c = '"' then unescape .between cs else none

/-- A hexadecimal digit is read as its value. -/
theorem hexValue?_digitChar : ∀ d < 16, Json.hexValue? d.digitChar = some d := by decide

/-- A hexadecimal digit is a letter or a decimal digit. -/
theorem isAlphanum_digitChar : ∀ d < 16, d.digitChar.isAlphanum = true := by decide

/-- A digit is read on top of the digits before it. -/
theorem unescape_digitChar {d : Nat} (hd : d < 16) (value : Nat) (rest : List Char) :
    unescape (.digits value) (d.digitChar :: rest) = unescape (.digits (value * 16 + d)) rest := by
  have hopen : d.digitChar ≠ '\x7d' := fun hbrace => by
    have halphanum := isAlphanum_digitChar d hd
    rw [hbrace] at halphanum
    exact absurd halphanum (by decide)
  rw [unescape, if_neg hopen, hexValue?_digitChar d hd]

/-- The digits of a number are read as the number. -/
theorem unescape_toDigits (n : Nat) (rest : List Char) :
    unescape (.digits 0) (Nat.toDigits 16 n ++ rest) = unescape (.digits n) rest := by
  induction n using Nat.strongRecOn generalizing rest with
  | ind n ih =>
    by_cases hn : n < 16
    · rw [Nat.toDigits_of_lt_base hn, List.singleton_append, unescape_digitChar hn, Nat.zero_mul,
        Nat.zero_add]
    · have hdigit : n % 16 < 16 := Nat.mod_lt n (by decide)
      rw [Nat.toDigits_of_base_le (by decide) (Nat.le_of_not_lt hn), List.append_assoc,
        ih (n / 16) (by omega), List.singleton_append, unescape_digitChar hdigit, Nat.div_add_mod']

/-- The digits of a number are letters and decimal digits. -/
theorem isAlphanum_of_mem_toDigits {n : Nat} {c : Char} (h : c ∈ Nat.toDigits 16 n) :
    c.isAlphanum = true := by
  induction n using Nat.strongRecOn with
  | ind n ih =>
    by_cases hn : n < 16
    · rw [Nat.toDigits_of_lt_base hn, List.mem_singleton] at h
      rw [h]
      exact isAlphanum_digitChar n hn
    · rw [Nat.toDigits_of_base_le (by decide) (Nat.le_of_not_lt hn), List.mem_append,
        List.mem_singleton] at h
      rcases h with h | rfl
      · exact ih (n / 16) (by omega) h
      · exact isAlphanum_digitChar (n % 16) (Nat.mod_lt n (by decide))

/-- A code point is read as its character. -/
theorem unescape_escapeCode (c : Char) (rest : List Char) :
    unescape .between (escapeCode c ++ rest) = (unescape .between rest).map (c :: ·) := by
  have hopen : unescape .between (escapeCode c ++ rest) =
      unescape (.digits 0) (Nat.toDigits 16 c.toNat ++ '\x7d' :: rest) := by
    rw [escapeCode, List.append_assoc, List.append_assoc]
    rfl
  rw [hopen, unescape_toDigits, unescape, if_pos rfl, Char.ofNat_toNat]

/-- A character is written by a name of two characters, by its code point, or as it is. -/
theorem escapeChar_cases (c : Char) :
    (∃ d, escapeChar c = ['\\', d] ∧ d ≠ 'u' ∧ d ≠ '\n' ∧ escaped? d = some c) ∨
      escapeChar c = escapeCode c ∨
        (escapeChar c = [c] ∧ c ≠ '"' ∧ c ≠ '\\' ∧ c ≠ '\n') := by
  by_cases hquote : c = '"'
  · exact .inl ⟨'"', by subst hquote; decide⟩
  by_cases hbackslash : c = '\\'
  · exact .inl ⟨'\\', by subst hbackslash; decide⟩
  by_cases hnull : c = '\x00'
  · exact .inl ⟨'0', by subst hnull; decide⟩
  by_cases htab : c = '\t'
  · exact .inl ⟨'t', by subst htab; decide⟩
  by_cases hfeed : c = '\n'
  · exact .inl ⟨'n', by subst hfeed; decide⟩
  by_cases hreturn : c = '\r'
  · exact .inl ⟨'r', by subst hreturn; decide⟩
  rw [escapeChar, if_neg hquote, if_neg hbackslash, if_neg hnull, if_neg htab, if_neg hfeed,
    if_neg hreturn]
  split
  · exact .inr (.inl rfl)
  · exact .inr (.inr ⟨rfl, hquote, hbackslash, hfeed⟩)

/-- Every character is read back from how it is written. -/
theorem unescape_escapeChar (c : Char) (rest : List Char) :
    unescape .between (escapeChar c ++ rest) = (unescape .between rest).map (c :: ·) := by
  rcases escapeChar_cases c with ⟨d, hname, hcode, -, hread⟩ | hcode | ⟨hraw, hquote, hbackslash, -⟩
  · have hopen : unescape .between (escapeChar c ++ rest) = unescape .escape (d :: rest) := by
      rw [hname]
      rfl
    rw [hopen, unescape, if_neg hcode, hread]
  · rw [hcode, unescape_escapeCode]
  · rw [hraw, List.singleton_append, unescape, if_neg hquote, if_neg hbackslash]

/-- No character is written with a line feed. -/
theorem lineFeed_notMem_escapeChar (c : Char) : '\n' ∉ escapeChar c := by
  rcases escapeChar_cases c with ⟨d, hname, -, hfeed, -⟩ | hcode | ⟨hraw, -, -, hfeed⟩
  · rw [hname, List.mem_pair, not_or]
    exact ⟨by decide, hfeed.symm⟩
  · rw [hcode, escapeCode, List.mem_append, List.mem_append, not_or, not_or]
    refine ⟨⟨by decide, fun hmem => ?_⟩, by decide⟩
    exact absurd (isAlphanum_of_mem_toDigits hmem) (by decide)
  · rw [hraw, List.mem_singleton]
    exact hfeed.symm

/-- The characters of a text are read back from how they are written, in front of what is read behind
them. -/
theorem unescape_escaped (cs rest : List Char) :
    unescape .between (cs.flatMap escapeChar ++ rest) = (unescape .between rest).map (cs ++ ·) := by
  induction cs with
  | nil =>
    rw [List.flatMap_nil, List.nil_append]
    exact Option.map_id'.symm
  | cons c cs ih =>
    rw [List.flatMap_cons, List.append_assoc, unescape_escapeChar, ih, Option.map_map]
    rfl

/-- A quoted text is read as the text. -/
theorem unquote_quoted (s : String) : unquote (quoted s).toList = some s.toList := by
  rw [quoted, String.toList_ofList, List.cons_append, unquote, if_pos rfl, unescape_escaped]
  exact congrArg some (List.append_nil _)

/-- Two texts are not quoted alike. -/
theorem quoted_injective : Function.Injective quoted := by
  intro s t h
  have hread := unquote_quoted s
  rw [h, unquote_quoted] at hread
  exact String.toList_injective (Option.some.inj hread).symm

/-- No quoted text goes on where another ends, because a reader stops at the last quotation mark. -/
theorem eq_nil_of_quoted_append {s t : String} {more : List Char}
    (h : (quoted t).toList = (quoted s).toList ++ more) : more = [] := by
  have hread := unquote_quoted t
  rw [h, quoted, String.toList_ofList, List.cons_append, List.cons_append, unquote, if_pos rfl,
    List.append_assoc, unescape_escaped] at hread
  cases more with
  | nil => rfl
  | cons c more => cases hread

/-- A quoted text stays on its line. -/
theorem lineFeed_notMem_quoted (s : String) : '\n' ∉ (quoted s).toList := by
  rw [quoted, String.toList_ofList, List.mem_append, List.mem_cons, List.mem_flatMap, not_or, not_or]
  refine ⟨⟨by decide, ?_⟩, by decide⟩
  rintro ⟨c, -, hmem⟩
  exact lineFeed_notMem_escapeChar c hmem

end SlotChain.Text

import SlotChain.Json.Quoted

/-!
# The grammar of JSON strings

A string is spelled by characters that stand for themselves and by escapes. Any code units may be spelled
by escapes; a spelling that is to denote a text must spell the two halves of a surrogate pair one behind
the other. The readers take exactly the spellings apart: the one that skips a string takes all of them, and
the one that reads a text takes those that denote it.
-/

namespace SlotChain.Json

/-! ### Spellings -/

/-- Four hexadecimal digits spell a code unit. -/
inductive SpellsUnit : List Char → Nat → Prop
  | digits {a b c d : Char} {w x y z : Nat} (ha : hexValue? a = some w) (hb : hexValue? b = some x)
    (hc : hexValue? c = some y) (hd : hexValue? d = some z) :
    SpellsUnit [a, b, c, d] (((w * 16 + x) * 16 + y) * 16 + z)

/-- The spelling of an escape, behind its backslash. -/
inductive SpellsEscape : List Char → Prop
  | named {c e : Char} (h : namedEscape? c = some e) : SpellsEscape [c]
  | unit {u : List Char} {n : Nat} (h : SpellsUnit u n) : SpellsEscape ('u' :: u)

/-- The character that an escape denotes, or two escapes that spell a surrogate pair. -/
inductive EscapeDenotes : List Char → Char → Prop
  | named {c e : Char} (h : namedEscape? c = some e) : EscapeDenotes [c] e
  | unit {u : List Char} {n : Nat} (h : SpellsUnit u n) (hlead : isLeadingSurrogate n = false)
    (htrail : isTrailingSurrogate n = false) : EscapeDenotes ('u' :: u) (Char.ofNat n)
  | pair {u v : List Char} {lead trail : Nat} (hu : SpellsUnit u lead)
    (hlead : isLeadingSurrogate lead = true) (hv : SpellsUnit v trail)
    (htrail : isTrailingSurrogate trail = true) :
    EscapeDenotes ('u' :: (u ++ '\\' :: 'u' :: v))
      (Char.ofNat (0x10000 + (lead - 0xd800) * 1024 + (trail - 0xdc00)))

/-- A character may stand in a string as it is. -/
structure StandsForItself (c : Char) : Prop where
  /-- It does not end the string. -/
  not_quote : c ≠ '"'
  /-- It does not start an escape. -/
  not_backslash : c ≠ '\\'
  /-- It is no control character. -/
  not_control : 0x20 ≤ c.toNat

/-- The spelling of a string, between its quotation marks. -/
inductive SpellsString : List Char → Prop
  | nil : SpellsString []
  | plain {c : Char} {s : List Char} (hc : StandsForItself c) (h : SpellsString s) :
    SpellsString (c :: s)
  | escape {e s : List Char} (he : SpellsEscape e) (h : SpellsString s) :
    SpellsString ('\\' :: (e ++ s))

/-- The text that the spelling of a string denotes. -/
inductive Denotes : List Char → List Char → Prop
  | nil : Denotes [] []
  | plain {c : Char} {s text : List Char} (hc : StandsForItself c) (h : Denotes s text) :
    Denotes (c :: s) (c :: text)
  | escape {e s text : List Char} {c : Char} (he : EscapeDenotes e c) (h : Denotes s text) :
    Denotes ('\\' :: (e ++ s)) (c :: text)

/-- What is passed on to a function was read. -/
theorem ok_of_map {ε β γ : Type} {r : Except ε β} {f : β → γ} {o : γ} (h : r.map f = .ok o) :
    ∃ p, r = .ok p ∧ f p = o := by
  cases r with
  | error e => cases h
  | ok p => exact ⟨p, rfl, Except.ok.inj h⟩

/-! ### Escapes -/

/-- A code unit is read exactly if it is spelled. -/
theorem readUnit_iff {cs rest : List Char} {n : Nat} :
    readUnit cs = .ok (n, rest) ↔ ∃ u, SpellsUnit u n ∧ cs = u ++ rest := by
  constructor
  · intro h
    unfold readUnit at h
    split at h
    · split at h
      · rename_i ha hb hc hd
        cases h
        exact ⟨_, .digits ha hb hc hd, rfl⟩
      · cases h
    · cases h
  · rintro ⟨_, ⟨ha, hb, hc, hd⟩, rfl⟩
    simp only [List.cons_append, List.nil_append, readUnit, ha, hb, hc, hd]

/-- The letter of a code unit names no escape. -/
theorem ne_of_namedEscape {c e : Char} (h : namedEscape? c = some e) : c ≠ 'u' := by
  rintro rfl
  cases h

/-- An escape is skipped exactly if it is spelled. -/
theorem skipEscape_iff {cs rest : List Char} :
    skipEscape cs = .ok rest ↔ ∃ e, SpellsEscape e ∧ cs = e ++ rest := by
  constructor
  · intro h
    unfold skipEscape at h
    split at h
    · cases h
    · split at h
      · cases h
      · rename_i hunit
        cases h
        obtain ⟨u, hu, rfl⟩ := readUnit_iff.1 hunit
        exact ⟨'u' :: u, .unit hu, rfl⟩
    · rename_i c cs _
      split at h
      · rename_i hnamed
        cases h
        obtain ⟨e, he⟩ := Option.isSome_iff_exists.1 hnamed
        exact ⟨[c], .named he, rfl⟩
      · cases h
  · rintro ⟨_, he, rfl⟩
    cases he with
    | named h =>
      rw [List.singleton_append, skipEscape.eq_3 _ _ (ne_of_namedEscape h), h]
      rfl
    | unit hu => rw [List.cons_append, skipEscape, readUnit_iff.2 ⟨_, hu, rfl⟩]

/-- The second half of a surrogate pair is read exactly if it is spelled. -/
theorem readTrailing_iff {lead : Nat} {cs rest : List Char} {c : Char} :
    readTrailing lead cs = .ok (c, rest) ↔
      ∃ v trail, SpellsUnit v trail ∧ isTrailingSurrogate trail = true ∧
        c = Char.ofNat (0x10000 + (lead - 0xd800) * 1024 + (trail - 0xdc00)) ∧
        cs = '\\' :: 'u' :: (v ++ rest) := by
  constructor
  · intro h
    unfold readTrailing at h
    split at h
    · cases h
    · cases h
    · split at h
      · cases h
      · rename_i trail _ hunit
        split at h
        · rename_i htrail
          simp only [Except.ok.injEq, Prod.mk.injEq] at h
          obtain ⟨rfl, rfl⟩ := h
          obtain ⟨v, hv, rfl⟩ := readUnit_iff.1 hunit
          exact ⟨v, trail, hv, htrail, rfl, rfl⟩
        · cases h
    · cases h
  · rintro ⟨v, trail, hv, htrail, hc, rfl⟩
    have hunit : readUnit (v ++ rest) = .ok (trail, rest) := readUnit_iff.2 ⟨v, hv, rfl⟩
    simp only [readTrailing, hunit, htrail, if_true, hc]

theorem not_isTrailing_of_isLeading {n : Nat} (h : isLeadingSurrogate n = true) :
    isTrailingSurrogate n = false := by
  simp only [isLeadingSurrogate, isTrailingSurrogate, Bool.and_eq_true, decide_eq_true_eq,
    Bool.and_eq_false_iff, decide_eq_false_iff_not] at *
  omega

/-- An escape is read for its character exactly if it denotes that character. -/
theorem readEscape_iff {cs rest : List Char} {c : Char} :
    readEscape cs = .ok (c, rest) ↔ ∃ e, EscapeDenotes e c ∧ cs = e ++ rest := by
  constructor
  · intro h
    unfold readEscape at h
    split at h
    · cases h
    · split at h
      · cases h
      · rename_i hunit
        obtain ⟨u, hu, rfl⟩ := readUnit_iff.1 hunit
        split at h
        · cases h
        · rename_i htrail
          split at h
          · rename_i hlead
            obtain ⟨v, trail, hv, htrail, hc, rfl⟩ := readTrailing_iff.1 h
            rw [hc]
            exact ⟨_, .pair hu hlead hv htrail, by simp⟩
          · rename_i hlead
            cases h
            exact ⟨'u' :: u, .unit hu (eq_false_of_ne_true hlead) (eq_false_of_ne_true htrail), rfl⟩
    · rename_i c cs _
      split at h
      · rename_i hnamed
        cases h
        exact ⟨[c], .named hnamed, rfl⟩
      · cases h
  · rintro ⟨_, he, rfl⟩
    cases he with
    | named h => rw [List.singleton_append, readEscape.eq_3 _ _ (ne_of_namedEscape h), h]
    | unit hu hlead htrail =>
      rw [List.cons_append, readEscape, readUnit_iff.2 ⟨_, hu, rfl⟩]
      simp only [hlead, htrail, Bool.false_eq_true, if_false]
    | @pair u v lead trail hu hlead hv htrail =>
      have hnot : isTrailingSurrogate lead = false := not_isTrailing_of_isLeading hlead
      rw [List.cons_append, List.append_assoc, readEscape, readUnit_iff.2 ⟨u, hu, rfl⟩]
      simp only [hlead, hnot, Bool.false_eq_true, if_false, if_true]
      exact readTrailing_iff.2 ⟨v, trail, hv, htrail, rfl, rfl⟩

/-! ### Strings -/

theorem skipString_escape {cs rest : List Char} (h : skipEscape cs = .ok rest) :
    skipString ('\\' :: cs) = skipString rest := by
  rw [skipString]
  split <;> simp_all

theorem readString_escape {cs rest : List Char} {c : Char} (h : readEscape cs = .ok (c, rest)) :
    readString ('\\' :: cs) = (readString rest).map fun (text, rest) => (c :: text, rest) := by
  rw [readString]
  split <;> simp_all

/-- A string is skipped exactly if it is spelled. -/
theorem skipString_iff {cs rest : List Char} :
    skipString cs = .ok rest ↔ ∃ s, SpellsString s ∧ cs = s ++ '"' :: rest := by
  constructor
  · intro h
    fun_induction skipString cs with
    | case1 => cases h
    | case2 =>
      cases h
      exact ⟨[], .nil, rfl⟩
    | case3 => cases h
    | case4 _ _ hescape _ ih =>
      obtain ⟨s, hs, rfl⟩ := ih h
      obtain ⟨e, he, rfl⟩ := skipEscape_iff.1 hescape
      exact ⟨_, .escape he hs, by simp⟩
    | case5 => cases h
    | case6 c _ hquote hbackslash hcontrol ih =>
      obtain ⟨s, hs, rfl⟩ := ih h
      exact ⟨c :: s, .plain ⟨hquote, hbackslash, Nat.not_lt.1 hcontrol⟩ hs, rfl⟩
  · rintro ⟨s, hs, rfl⟩
    induction hs with
    | nil => rw [List.nil_append, skipString]
    | plain hc _ ih =>
      rw [List.cons_append, skipString.eq_4 _ _ hc.not_quote hc.not_backslash,
        if_neg (Nat.not_lt.2 hc.not_control), ih]
    | escape he _ ih =>
      rw [List.cons_append, List.append_assoc, skipString_escape (skipEscape_iff.2 ⟨_, he, rfl⟩), ih]

/-- A string is read for its text exactly if its spelling denotes that text. -/
theorem readString_iff {cs text rest : List Char} :
    readString cs = .ok (text, rest) ↔ ∃ s, Denotes s text ∧ cs = s ++ '"' :: rest := by
  constructor
  · intro h
    fun_induction readString cs generalizing text with
    | case1 => cases h
    | case2 =>
      cases h
      exact ⟨[], .nil, rfl⟩
    | case3 => cases h
    | case4 _ _ _ hescape _ ih =>
      obtain ⟨⟨text, rest⟩, hread, hcons⟩ := ok_of_map h
      cases hcons
      obtain ⟨s, hs, rfl⟩ := ih hread
      obtain ⟨e, he, rfl⟩ := readEscape_iff.1 hescape
      exact ⟨_, .escape he hs, by simp⟩
    | case5 => cases h
    | case6 c _ hquote hbackslash hcontrol ih =>
      obtain ⟨⟨text, rest⟩, hread, hcons⟩ := ok_of_map h
      cases hcons
      obtain ⟨s, hs, rfl⟩ := ih hread
      exact ⟨c :: s, .plain ⟨hquote, hbackslash, Nat.not_lt.1 hcontrol⟩ hs, rfl⟩
  · rintro ⟨s, hs, rfl⟩
    induction hs with
    | nil => rw [List.nil_append, readString]
    | plain hc _ ih =>
      rw [List.cons_append, readString.eq_4 _ _ hc.not_quote hc.not_backslash,
        if_neg (Nat.not_lt.2 hc.not_control), ih]
      rfl
    | escape he _ ih =>
      rw [List.cons_append, List.append_assoc, readString_escape (readEscape_iff.2 ⟨_, he, rfl⟩), ih]
      rfl

/-- A spelling denotes one text only. -/
theorem Denotes.unique {s text text' : List Char} (h : Denotes s text) (h' : Denotes s text') :
    text = text' := by
  have hread : readString (s ++ ['"']) = .ok (text, []) := readString_iff.2 ⟨s, h, rfl⟩
  have hread' : readString (s ++ ['"']) = .ok (text', []) := readString_iff.2 ⟨s, h', rfl⟩
  rw [hread] at hread'
  cases hread'
  rfl

/-- Whether a spelling denotes a text is found out by reading it. -/
theorem denotes_iff {s text : List Char} :
    (readString (s ++ ['"'])).toOption = some (text, []) ↔ Denotes s text := by
  constructor
  · intro h
    cases hread : readString (s ++ ['"']) with
    | error flaw =>
      rw [hread] at h
      cases h
    | ok p =>
      rw [hread] at h
      cases h
      obtain ⟨spelling, hspelling, heq⟩ := readString_iff.1 hread
      exact List.append_cancel_right heq ▸ hspelling
  · intro h
    rw [readString_iff.2 ⟨s, h, rfl⟩]
    rfl

instance (s text : List Char) : Decidable (Denotes s text) := decidable_of_iff _ denotes_iff

end SlotChain.Json

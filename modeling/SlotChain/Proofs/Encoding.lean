import Mathlib.Data.List.Basic
import Mathlib.Data.List.Forall2

/-!
# The encoding of texts

A character is written in one to four bytes. The first one tells how many follow it and carries the first
bits of the number of the character; each of the others carries six more. Of the bytes that give the same
number only the shortest are used, and only numbers of characters are written. What encodes a character
does not start with what encodes another one, so bytes encode one text at most. Where they encode none,
there is a place up to which they do, and behind it bytes that are wrong in one of five ways.
-/

namespace SlotChain.Text

/-! ### The bytes of a character -/

/-- A byte that stands behind the first one of a character. -/
def Continues (b : UInt8) : Prop := 0x80 ≤ b.toNat ∧ b.toNat < 0xc0
deriving Decidable

/-- The first byte of a character tells the number of bytes behind it, and carries the first bits. -/
inductive Leads (b : UInt8) : Nat → Nat → Prop
  | alone (h : b.toNat < 0x80) : Leads b 0 b.toNat
  | one (hlow : 0xc0 ≤ b.toNat) (hhigh : b.toNat < 0xe0) : Leads b 1 (b.toNat - 0xc0)
  | two (hlow : 0xe0 ≤ b.toNat) (hhigh : b.toNat < 0xf0) : Leads b 2 (b.toNat - 0xe0)
  | three (hlow : 0xf0 ≤ b.toNat) (hhigh : b.toNat < 0xf8) : Leads b 3 (b.toNat - 0xf0)

/-- Bits, and six more from every byte behind them. -/
def gather (bits : Nat) (further : List UInt8) : Nat :=
  further.foldl (fun n b => 64 * n + (b.toNat - 0x80)) bits

/-- Bytes have the form of a character, and give this number. -/
inductive Forms : List UInt8 → Nat → Prop
  /-- As many bytes stand behind the first one as it tells. -/
  | mk {first : UInt8} {further : List UInt8} {bits n : Nat} (hlead : Leads first further.length bits)
    (hfurther : ∀ b ∈ further, Continues b) (hn : gather bits further = n) : Forms (first :: further) n

/-- The least number that is written in so many bytes. -/
def leastOf : Nat → Nat
  | 0 => 0
  | 1 => 0
  | 2 => 0x80
  | 3 => 0x800
  | _ => 0x10000

/-- Bytes encode a character. -/
structure Encodes (c : Char) (bytes : List UInt8) : Prop where
  /-- They have the form of a character and give its number. -/
  forms : Forms bytes c.toNat
  /-- Fewer bytes do not suffice. -/
  shortest : leastOf bytes.length ≤ c.toNat

/-- Bytes encode a text: those of its characters, put together in order. -/
def EncodesText (cs : List Char) (bytes : List UInt8) : Prop :=
  ∃ parts, List.Forall₂ Encodes cs parts ∧ bytes = parts.flatten

/-- Bytes are wrong from the first one on. -/
inductive Misencoded : List UInt8 → Prop
  /-- The first byte does not start a character. -/
  | stray {b : UInt8} {rest : List UInt8} (h : ∀ count bits, ¬Leads b count bits) :
    Misencoded (b :: rest)
  /-- A character ends before its last byte. -/
  | truncated {first : UInt8} {further rest : List UInt8} {count bits : Nat}
    (hlead : Leads first count bits) (hfew : further.length < count)
    (hfurther : ∀ b ∈ further, Continues b) (hends : ∀ b ∈ rest.head?, ¬Continues b) :
    Misencoded (first :: (further ++ rest))
  /-- Fewer bytes suffice for the number. -/
  | overlong {form rest : List UInt8} {n : Nat} (h : Forms form n) (hn : n < leastOf form.length) :
    Misencoded (form ++ rest)
  /-- The number is one of those kept for pairs of numbers, and not that of a character. -/
  | surrogate {form rest : List UInt8} {n : Nat} (h : Forms form n) (hlow : 0xd800 ≤ n)
    (hhigh : n < 0xe000) : Misencoded (form ++ rest)
  /-- The number is greater than that of any character. -/
  | beyond {form rest : List UInt8} {n : Nat} (h : Forms form n) (hn : 0x10ffff < n) :
    Misencoded (form ++ rest)

/-! ### Where a character ends -/

/-- The first byte tells one thing. -/
theorem Leads.unique {b : UInt8} {count bits count' bits' : Nat} (h : Leads b count bits)
    (h' : Leads b count' bits') : count = count' ∧ bits = bits' := by
  cases h <;> cases h' <;> omega

/-- There is at least one byte. -/
theorem Forms.length_pos {form : List UInt8} {n : Nat} (h : Forms form n) : 0 < form.length := by
  cases h
  exact Nat.succ_pos _

/-- What has the form of a character is found again, whatever follows. -/
theorem Forms.append_inj {form form' rest rest' : List UInt8} {n n' : Nat} (h : Forms form n)
    (h' : Forms form' n') (heq : form ++ rest = form' ++ rest') :
    form = form' ∧ n = n' ∧ rest = rest' := by
  obtain ⟨hlead, -, rfl⟩ := h
  obtain ⟨hlead', -, rfl⟩ := h'
  obtain ⟨rfl, hfurther⟩ := List.cons.inj heq
  obtain ⟨hcount, rfl⟩ := hlead.unique hlead'
  obtain ⟨rfl, rfl⟩ := List.append_inj hfurther hcount
  exact ⟨rfl, rfl, rfl⟩

/-- The number of a character is none of those kept for pairs, and not beyond the last. -/
theorem toNat_valid (c : Char) : c.toNat < 0xd800 ∨ 0xdfff < c.toNat ∧ c.toNat < 0x110000 := c.valid

/-- Every number that is valid is the number of a character. -/
theorem exists_toNat_eq {n : Nat} (h : n.isValidChar) : ∃ c : Char, c.toNat = n :=
  ⟨Char.ofNatAux n h, rfl⟩

/-- A character that ends before its last byte is none. -/
theorem Leads.not_forms {first : UInt8} {count bits : Nat} {further rest form more : List UInt8} {n : Nat}
    (hlead : Leads first count bits) (hfew : further.length < count)
    (hends : ∀ b ∈ rest.head?, ¬Continues b) (hform : Forms form n) :
    first :: (further ++ rest) ≠ form ++ more := by
  intro heq
  obtain ⟨hlead', hcontinue, -⟩ := hform
  obtain ⟨rfl, hfurther⟩ := List.cons.inj heq
  obtain ⟨rfl, -⟩ := hlead.unique hlead'
  obtain ⟨between, rfl, rfl⟩ | ⟨between, rfl, rfl⟩ := List.append_eq_append_iff.1 hfurther
  · cases between with
    | nil =>
      rw [List.append_nil] at hfew
      exact Nat.lt_irrefl _ hfew
    | cons b between =>
      exact hends b rfl (hcontinue b (List.mem_append_right _ List.mem_cons_self))
  · rw [List.length_append] at hfew
    omega

/-- No character is encoded where bytes are wrong. -/
theorem Misencoded.ne_append {c : Char} {bad part more : List UInt8} (h : Misencoded bad)
    (hpart : Encodes c part) : bad ≠ part ++ more := by
  intro heq
  have hvalid := toNat_valid c
  have hshortest := hpart.shortest
  have hforms := hpart.forms
  cases h with
  | stray hnone =>
    obtain ⟨hlead, -⟩ := hforms
    obtain ⟨rfl, -⟩ := List.cons.inj heq
    exact hnone _ _ hlead
  | truncated hlead hfew _ hends => exact hlead.not_forms hfew hends hforms heq
  | overlong hform hn =>
    obtain ⟨rfl, rfl, -⟩ := hform.append_inj hforms heq
    omega
  | surrogate hform hlow hhigh =>
    obtain ⟨-, rfl, -⟩ := hform.append_inj hforms heq
    omega
  | beyond hform hn =>
    obtain ⟨-, rfl, -⟩ := hform.append_inj hforms heq
    omega

/-- Something has to be there to be wrong. -/
theorem Misencoded.ne_nil {bad : List UInt8} (h : Misencoded bad) : bad ≠ [] := by
  cases h with
  | stray | truncated => exact List.cons_ne_nil _ _
  | overlong hform | surrogate hform | beyond hform =>
    exact List.append_ne_nil_of_left_ne_nil (List.ne_nil_of_length_pos hform.length_pos) _

/-! ### Finding the characters -/

/-- Of bytes either so many continue a character, or they stop doing so before. -/
theorem continue_or_end (count : Nat) (bytes : List UInt8) :
    ∃ further rest, bytes = further ++ rest ∧ (∀ b ∈ further, Continues b) ∧
      (further.length = count ∨ further.length < count ∧ ∀ b ∈ rest.head?, ¬Continues b) := by
  induction count generalizing bytes with
  | zero => exact ⟨[], bytes, rfl, List.forall_mem_nil _, .inl rfl⟩
  | succ count ih =>
    cases bytes with
    | nil => exact ⟨[], [], rfl, List.forall_mem_nil _, .inr ⟨Nat.succ_pos _, nofun⟩⟩
    | cons b bytes =>
      by_cases hb : Continues b
      · obtain ⟨further, rest, rfl, hfurther, hlength⟩ := ih bytes
        refine ⟨b :: further, rest, rfl, List.forall_mem_cons.2 ⟨hb, hfurther⟩, ?_⟩
        rw [List.length_cons, Nat.add_right_cancel_iff, Nat.add_lt_add_iff_right]
        exact hlength
      · refine ⟨[], b :: bytes, rfl, List.forall_mem_nil _, .inr ⟨Nat.succ_pos _, ?_⟩⟩
        intro b' hb'
        cases hb'
        exact hb

/-- Bytes start with a character, or they are wrong. -/
theorem encodes_or_misencoded (b : UInt8) (bytes : List UInt8) :
    (∃ c part rest, Encodes c part ∧ b :: bytes = part ++ rest) ∨ Misencoded (b :: bytes) := by
  by_cases hlead : ∃ count bits, Leads b count bits
  · obtain ⟨count, bits, hlead⟩ := hlead
    obtain ⟨further, rest, rfl, hfurther, rfl | ⟨hfew, hends⟩⟩ := continue_or_end count bytes
    · have hform : Forms (b :: further) (gather bits further) := .mk hlead hfurther rfl
      by_cases hshort : gather bits further < leastOf (b :: further).length
      · exact .inr (.overlong hform hshort)
      · by_cases hvalid : (gather bits further).isValidChar
        · obtain ⟨c, hc⟩ := exists_toNat_eq hvalid
          rw [← hc] at hform hshort
          exact .inl ⟨c, b :: further, rest, ⟨hform, Nat.le_of_not_lt hshort⟩, rfl⟩
        · by_cases hbeyond : 0x10ffff < gather bits further
          · exact .inr (.beyond hform hbeyond)
          · rw [Nat.isValidChar] at hvalid
            exact .inr (.surrogate hform (by omega) (by omega))
    · exact .inr (.truncated hlead hfew hfurther hends)
  · refine .inr (.stray fun count bits h => hlead ⟨count, bits, h⟩)

/-! ### Texts -/

theorem encodesText_nil : EncodesText [] [] := ⟨[], .nil, rfl⟩

/-- The bytes of a character come before those of the others. -/
theorem EncodesText.cons {c : Char} {cs : List Char} {part bytes : List UInt8} (hc : Encodes c part)
    (h : EncodesText cs bytes) : EncodesText (c :: cs) (part ++ bytes) := by
  obtain ⟨parts, hparts, rfl⟩ := h
  exact ⟨part :: parts, .cons hc hparts, rfl⟩

/-- Bytes encode a text, or else they do so up to a place where they are wrong. -/
theorem encodesText_or_misencoded (bytes : List UInt8) :
    (∃ cs, EncodesText cs bytes) ∨
      ∃ cs front bad, EncodesText cs front ∧ Misencoded bad ∧ bytes = front ++ bad := by
  -- Reading goes on behind a whole character, so the induction is on the number of bytes left.
  induction hlength : bytes.length using Nat.strongRecOn generalizing bytes with
  | ind n ih =>
    cases bytes with
    | nil => exact .inl ⟨[], encodesText_nil⟩
    | cons b bytes =>
      rcases encodes_or_misencoded b bytes with ⟨c, part, rest, hc, heq⟩ | hbad
      · have hfewer : rest.length < n := by
          have hsome := hc.forms.length_pos
          rw [← hlength, heq, List.length_append]
          omega
        rw [heq]
        rcases ih rest.length hfewer rest rfl with ⟨cs, hcs⟩ | ⟨cs, front, bad, hcs, hbad, rfl⟩
        · exact .inl ⟨c :: cs, hcs.cons hc⟩
        · exact .inr ⟨c :: cs, part ++ front, bad, hcs.cons hc, hbad, (List.append_assoc ..).symm⟩
      · exact .inr ⟨[], [], b :: bytes, encodesText_nil, hbad, rfl⟩

/-- Behind a character there is a text again. -/
theorem EncodesText.of_append {cs : List Char} {c : Char} {part rest : List UInt8}
    (h : EncodesText cs (part ++ rest)) (hc : Encodes c part) : ∃ more, EncodesText more rest := by
  obtain ⟨parts, hparts, heq⟩ := h
  cases hparts with
  | nil =>
    have hsome := hc.forms.length_pos
    have hnone := congrArg List.length heq
    rw [List.length_append, List.flatten_nil, List.length_nil] at hnone
    omega
  | @cons _ _ more parts hc' hmore =>
    obtain ⟨-, -, rfl⟩ := hc.forms.append_inj hc'.forms heq
    exact ⟨more, parts, hmore, rfl⟩

/-- Bytes that are wrong are no text. -/
theorem Misencoded.not_encodesText {bad : List UInt8} (h : Misencoded bad) (cs : List Char) :
    ¬EncodesText cs bad := by
  rintro ⟨parts, hparts, rfl⟩
  cases hparts with
  | nil => exact h.ne_nil rfl
  | cons hc _ => exact h.ne_append hc rfl

/-- Bytes encode no text if and only if there is a place up to which they do, and they are wrong there. -/
theorem not_encodesText_iff {bytes : List UInt8} :
    (¬∃ cs, EncodesText cs bytes) ↔
      ∃ cs front bad, EncodesText cs front ∧ Misencoded bad ∧ bytes = front ++ bad := by
  constructor
  · exact (encodesText_or_misencoded bytes).resolve_left
  · rintro ⟨cs, front, bad, ⟨parts, hparts, rfl⟩, hbad, rfl⟩ ⟨cs', hcs'⟩
    induction hparts generalizing cs' with
    | nil => exact hbad.not_encodesText cs' hcs'
    | cons hc _ ih =>
      rw [List.flatten_cons, List.append_assoc] at hcs'
      obtain ⟨more, hmore⟩ := hcs'.of_append hc
      exact ih more hmore

/-! ### Writing characters -/

/-- A byte is that of its number. -/
theorem eq_ofNat {b : UInt8} {n : Nat} (h : n = b.toNat) : b = UInt8.ofNat n := by
  rw [h, UInt8.ofNat_toNat]

/-- A small number is that of its byte. -/
theorem toNat_byte {n : Nat} (h : n < 256) : (UInt8.ofNat n).toNat = n := by
  rw [UInt8.toNat_ofNat', Nat.mod_eq_of_lt h]

/-- A first byte and bytes with six bits each encode the character whose bits they are. -/
theorem encodes_of_leads {c : Char} {first : UInt8} {bits : Nat} (rest : List Nat)
    (hlead : Leads first rest.length bits)
    (hvalue : rest.foldl (fun n m => 64 * n + m % 64) bits = c.toNat)
    (hshortest : leastOf (rest.length + 1) ≤ c.toNat) :
    Encodes c (first :: rest.map fun m => UInt8.ofNat (m % 64 + 128)) := by
  have hsix : ∀ m, (UInt8.ofNat (m % 64 + 128)).toNat = m % 64 + 128 := fun m => toNat_byte (by omega)
  rw [← List.length_map fun m => UInt8.ofNat (m % 64 + 128)] at hlead hshortest
  refine ⟨.mk hlead ?_ ?_, hshortest⟩
  · intro b hb
    obtain ⟨m, -, rfl⟩ := List.mem_map.1 hb
    rw [Continues, hsix]
    omega
  · simp only [gather, List.foldl_map, hsix, Nat.add_sub_cancel]
    exact hvalue

/-- A character is encoded by the bytes in which it is written. -/
theorem encodes_utf8EncodeChar (c : Char) : Encodes c (String.utf8EncodeChar c) := by
  have hvalid := toNat_valid c
  have hnumber : c.val.toNat = c.toNat := rfl
  -- Behind the first byte there are none, one, two or three, each with the lowest six bits of what is left.
  rw [String.utf8EncodeChar, hnumber]
  split
  · have hfirst := toNat_byte (n := c.toNat) (by omega)
    have hlead := Leads.alone (b := UInt8.ofNat c.toNat) (by omega)
    exact encodes_of_leads [] hlead hfirst (Nat.zero_le _)
  · split
    · have hfirst := toNat_byte (n := c.toNat / 64 % 32 + 192) (by omega)
      have hlead := Leads.one (b := UInt8.ofNat (c.toNat / 64 % 32 + 192)) (by omega) (by omega)
      have hleast : 0x80 ≤ c.toNat := by omega
      rw [hfirst, Nat.add_sub_cancel] at hlead
      refine encodes_of_leads [c.toNat] hlead ?_ hleast
      rw [List.foldl_cons, List.foldl_nil]
      omega
    · split
      · have hfirst := toNat_byte (n := c.toNat / 4096 % 16 + 224) (by omega)
        have hlead := Leads.two (b := UInt8.ofNat (c.toNat / 4096 % 16 + 224)) (by omega) (by omega)
        have hleast : 0x800 ≤ c.toNat := by omega
        rw [hfirst, Nat.add_sub_cancel] at hlead
        refine encodes_of_leads [c.toNat / 64, c.toNat] hlead ?_ hleast
        rw [List.foldl_cons, List.foldl_cons, List.foldl_nil]
        omega
      · have hfirst := toNat_byte (n := c.toNat / 262144 % 8 + 240) (by omega)
        have hlead := Leads.three (b := UInt8.ofNat (c.toNat / 262144 % 8 + 240)) (by omega) (by omega)
        have hleast : 0x10000 ≤ c.toNat := by omega
        rw [hfirst, Nat.add_sub_cancel] at hlead
        refine encodes_of_leads [c.toNat / 4096, c.toNat / 64, c.toNat] hlead ?_ hleast
        rw [List.foldl_cons, List.foldl_cons, List.foldl_cons, List.foldl_nil]
        omega

/-- The bytes in which a character is written are the only ones that encode it. -/
theorem Encodes.eq_utf8EncodeChar {c : Char} {bytes : List UInt8} (h : Encodes c bytes) :
    bytes = String.utf8EncodeChar c := by
  obtain ⟨hforms, hshortest⟩ := h
  have hnumber : c.val.toNat = c.toNat := rfl
  cases hforms with
  | @mk first further bits _ hlead hfurther hn =>
    -- The first byte tells how many others there are, and the number of bytes bounds that of the character.
    generalize hcount : further.length = count at hlead
    rw [List.length_cons, hcount] at hshortest
    rw [String.utf8EncodeChar, hnumber]
    cases hlead with
    | alone hone =>
      obtain rfl := List.length_eq_zero_iff.1 hcount
      rw [gather, List.foldl_nil] at hn
      rw [if_pos (by omega), eq_ofNat hn.symm]
    | one hlow hhigh =>
      obtain ⟨x, rfl⟩ := List.length_eq_one_iff.1 hcount
      simp only [List.forall_mem_cons, Continues] at hfurther
      simp only [gather, List.foldl_cons, List.foldl_nil] at hn
      have hleast : 0x80 ≤ c.toNat := hshortest
      rw [if_neg (by omega), if_pos (by omega),
        eq_ofNat (b := first) (n := c.toNat / 64 % 32 + 192) (by omega),
        eq_ofNat (b := x) (n := c.toNat % 64 + 128) (by omega)]
    | two hlow hhigh =>
      obtain ⟨x, y, rfl⟩ := List.length_eq_two.1 hcount
      simp only [List.forall_mem_cons, Continues] at hfurther
      simp only [gather, List.foldl_cons, List.foldl_nil] at hn
      have hleast : 0x800 ≤ c.toNat := hshortest
      rw [if_neg (by omega), if_neg (by omega), if_pos (by omega),
        eq_ofNat (b := first) (n := c.toNat / 4096 % 16 + 224) (by omega),
        eq_ofNat (b := x) (n := c.toNat / 64 % 64 + 128) (by omega),
        eq_ofNat (b := y) (n := c.toNat % 64 + 128) (by omega)]
    | three hlow hhigh =>
      obtain ⟨x, y, z, rfl⟩ := List.length_eq_three.1 hcount
      have hvalid := toNat_valid c
      simp only [List.forall_mem_cons, Continues] at hfurther
      simp only [gather, List.foldl_cons, List.foldl_nil] at hn
      have hleast : 0x10000 ≤ c.toNat := hshortest
      rw [if_neg (by omega), if_neg (by omega), if_neg (by omega),
        eq_ofNat (b := first) (n := c.toNat / 262144 % 8 + 240) (by omega),
        eq_ofNat (b := x) (n := c.toNat / 4096 % 64 + 128) (by omega),
        eq_ofNat (b := y) (n := c.toNat / 64 % 64 + 128) (by omega),
        eq_ofNat (b := z) (n := c.toNat % 64 + 128) (by omega)]

/-! ### Reading texts -/

/-- The bytes that encode a text are those of its characters, each written by itself. -/
theorem encodesText_iff {cs : List Char} {bytes : List UInt8} :
    EncodesText cs bytes ↔ bytes = cs.flatMap String.utf8EncodeChar := by
  constructor
  · rintro ⟨parts, hparts, rfl⟩
    induction hparts with
    | nil => rfl
    | cons hc _ ih => rw [List.flatten_cons, List.flatMap_cons, ih, hc.eq_utf8EncodeChar]
  · rintro rfl
    induction cs with
    | nil => exact encodesText_nil
    | cons c cs ih => exact ih.cons (encodes_utf8EncodeChar c)

/-- Characters and the text of them are encoded alike. -/
theorem EncodesText.ofList {cs : List Char} {bytes : List UInt8} (h : EncodesText cs bytes) :
    EncodesText (String.ofList cs).toList bytes := by
  rw [String.toList_ofList]
  exact h

/-- The bytes that hold a text encode it. -/
theorem encodesText_toByteArray (text : String) :
    EncodesText text.toList text.toByteArray.data.toList := by
  rw [encodesText_iff, ← String.utf8Encode_toList, List.utf8Encode, List.toList_data_toByteArray]

/-- Bytes are read as the text that they encode, if there is one. -/
theorem fromUTF8?_eq_some_iff {bytes : ByteArray} {text : String} :
    String.fromUTF8? bytes = some text ↔ EncodesText text.toList bytes.data.toList := by
  have hread : String.fromUTF8? text.toByteArray = some text := dif_pos text.isValidUTF8
  constructor
  · intro h
    rw [String.fromUTF8?] at h
    split at h
    · cases h
      exact encodesText_toByteArray _
    · cases h
  · intro h
    have hbytes : bytes.data.toList = text.toByteArray.data.toList := by
      rw [encodesText_iff.1 h, encodesText_iff.1 (encodesText_toByteArray text)]
    rw [ByteArray.ext (Array.toList_inj.1 hbytes), hread]

/-- Bytes are not read as a text if and only if they encode none. -/
theorem fromUTF8?_eq_none_iff {bytes : ByteArray} :
    String.fromUTF8? bytes = none ↔ ¬∃ cs, EncodesText cs bytes.data.toList := by
  rw [Option.eq_none_iff_forall_ne_some, not_exists]
  constructor
  · exact fun h cs hcs => h (String.ofList cs) (fromUTF8?_eq_some_iff.2 hcs.ofList)
  · exact fun h text htext => h text.toList (fromUTF8?_eq_some_iff.1 htext)

end SlotChain.Text

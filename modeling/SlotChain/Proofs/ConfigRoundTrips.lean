import SlotChain.Proofs.ConfigTexts

/-!
# Configurations are read back from their texts

A configuration is written as an object with one member. It is read back from this text, and from every
text that comes about when white space is put between the tokens and other members are put in front of and
behind that one. Reading any text and writing what was read gives the canonical text of the configuration,
which has no white space, no other member and no superfluous zero; and the canonical texts are the only
ones that stay what they are when they are read and written again.
-/

namespace SlotChain

namespace Json

/-- The decimal notation of a number is an integer literal. -/
theorem spellsInteger_toDigits (n : Nat) : SpellsInteger (Nat.toDigits 10 n) n := by
  refine ⟨?_, Nat.ofDigitChars_ten_toDigits⟩
  have hdigits : ∀ d ∈ Nat.toDigits 10 n, d.isDigit = true := fun _ => Text.isDigit_of_mem_toDigits
  rcases Nat.eq_zero_or_pos n with rfl | hn
  · exact .zero
  · obtain ⟨c, s, hs, hc⟩ := Text.exists_toDigits_of_pos hn
    rw [hs] at hdigits ⊢
    obtain ⟨hdigit, hmore⟩ := List.forall_mem_cons.1 hdigits
    exact .digits hdigit hc hmore

/-- There is no other integer literal of a number. -/
theorem SpellsInteger.eq_toDigits {s : List Char} {n : Nat} (h : SpellsInteger s n) :
    s = Nat.toDigits 10 n := by
  obtain ⟨hwhole, rfl⟩ := h
  cases hwhole with
  | zero => rfl
  | @digits c s hc hzero hs =>
    rw [Text.ofDigitChars_digit, Nat.mul_zero, Nat.zero_add,
      Text.toDigits_ofDigitChars hs (Text.digitValue_pos hc hzero), Text.toDigits_digitValue hc]
    rfl

end Json

namespace ListConfig

open Json

/-! ### Texts of a configuration -/

/-- A member that says nothing about the capacity. -/
structure Foreign (m : Member) : Prop where
  /-- There is only white space around its name and its value. -/
  spaced : m.Spaced
  /-- Its name denotes a text, which is not the name of the capacity. -/
  named : ∃ text, Denotes m.name text ∧ text ≠ "capacity".toList
  /-- Its value is a JSON value. -/
  value : WellFormed m.element.value

/-- The member that a configuration is written with, apart from white space. -/
structure Own (c : ListConfig) (m : Member) : Prop where
  /-- There is only white space around its name and its value. -/
  spaced : m.Spaced
  /-- Its name is that of the capacity, spelled without escapes. -/
  name : m.name = "capacity".toList
  /-- Its value is the capacity in decimal notation. -/
  value : m.element.value = (Text.natural c.capacity.toNat).toList

/-- The text of a configuration, with white space between its tokens and around it, and with other members
in front of and behind its own. -/
inductive Embeds (c : ListConfig) (cs : List Char) : Prop
  | intro {before blank after : List Char} {front back : List Member} {own : Member}
    (hbefore : Blank before) (hblank : Blank blank) (hfront : ∀ m ∈ front, Foreign m)
    (hown : Own c own) (hback : ∀ m ∈ back, Foreign m) (hafter : Blank after)
    (hcs : cs = before ++ (objectText blank (front ++ own :: back) ++ after))

/-- The text of a configuration that has nothing superfluous in it. -/
inductive Canonical : List Char → Prop
  | intro {s : List Char} {n : Nat} (hs : SpellsInteger s n) (hn : n < wordLimit) :
    Canonical ("\x7b\"capacity\":".toList ++ (s ++ ['\x7d']))

/-- Read a text and write what was read. -/
def rewrite (text : String) : Except ConfigError String := (ofJson text).map toJson

/-- A configuration on one line. -/
theorem toJson_eq (c : ListConfig) :
    toJson c = "\x7b\"capacity\":" ++ Text.natural c.capacity.toNat ++ "\x7d" := rfl

/-- A configuration over several lines. -/
theorem toPrettyJson_eq (c : ListConfig) :
    toPrettyJson c = "\x7b\n  \"capacity\": " ++ Text.natural c.capacity.toNat ++ "\n\x7d" := rfl

theorem toList_toJson (c : ListConfig) :
    (toJson c).toList =
      "\x7b\"capacity\":".toList ++ (Nat.toDigits 10 c.capacity.toNat ++ ['\x7d']) := by
  simp only [toJson_eq, Text.natural, String.toList_append, String.toList_ofList, List.append_assoc]
  rfl

theorem namesCapacity_capacity : NamesCapacity "capacity".toList := by decide +kernel

/-- An object of one member is its text between braces. -/
theorem objectText_singleton (m : Member) : objectText [] [m] = '\x7b' :: (m.text ++ ['\x7d']) := by
  rw [objectText, List.map_singleton, separated_singleton, List.nil_append]

/-- White space around the name and the value leaves the own member what it is. -/
theorem own_of_blank (c : ListConfig) {before between front back : List Char} (hbefore : Blank before)
    (hbetween : Blank between) (hfront : Blank front) (hback : Blank back) :
    Own c ⟨before, "capacity".toList, between, front, (Text.natural c.capacity.toNat).toList, back⟩ :=
  ⟨⟨hbefore, hbetween, hfront, hback⟩, rfl, rfl⟩

/-- An object with the own member alone is a text of the configuration. -/
theorem Own.embeds {c : ListConfig} {m : Member} (h : Own c m) : Embeds c (objectText [] [m]) := by
  have hblank : Blank [] := List.forall_mem_nil _
  have hnone : ∀ m ∈ ([] : List Member), Foreign m := List.forall_mem_nil _
  exact .intro hblank hblank hnone h hnone hblank (List.append_nil _).symm

/-- So is what is written on one line. -/
theorem embeds_toJson (c : ListConfig) : Embeds c (toJson c).toList := by
  have hblank : Blank [] := List.forall_mem_nil _
  have htext := (own_of_blank c hblank hblank hblank hblank).embeds
  rw [objectText_singleton] at htext
  simp only [Member.text, Element.text, List.nil_append, List.append_nil, List.append_assoc,
    List.cons_append] at htext
  rw [toJson_eq, String.toList_append, String.toList_append, List.append_assoc]
  exact htext

/-- So is what is written over several lines. -/
theorem embeds_toPrettyJson (c : ListConfig) : Embeds c (toPrettyJson c).toList := by
  have hbefore : Blank "\n  ".toList := by decide
  have hbetween : Blank [] := List.forall_mem_nil _
  have hfront : Blank [' '] := by decide
  have hback : Blank ['\n'] := by decide
  have htext := (own_of_blank c hbefore hbetween hfront hback).embeds
  rw [objectText_singleton] at htext
  simp only [Member.text, Element.text, List.nil_append, List.append_assoc, List.cons_append] at htext
  rw [toPrettyJson_eq, String.toList_append, String.toList_append, List.append_assoc]
  exact htext

/-! ### Reading them -/

/-- A foreign member is one whose name denotes a text. -/
theorem Foreign.proper {m : Member} (h : Foreign m) : m.Proper := by
  obtain ⟨text, htext, -⟩ := h.named
  exact ⟨h.spaced, ⟨text, htext⟩, h.value⟩

theorem Foreign.not_names {m : Member} (h : Foreign m) : ¬ NamesCapacity m.name := by
  obtain ⟨text, htext, hne⟩ := h.named
  exact mt (namesCapacity_iff_of_denotes htext).1 hne

theorem Own.proper {c : ListConfig} {m : Member} (h : Own c m) : m.Proper := by
  refine ⟨h.spaced, ⟨_, h.name ▸ namesCapacity_capacity⟩, ?_⟩
  rw [h.value, Text.natural, String.toList_ofList]
  exact (spellsInteger_toDigits _).wellFormed

theorem capacityValues_append (entries more : List (List Char × List Char)) :
    capacityValues (entries ++ more) = capacityValues entries ++ capacityValues more := by
  simp only [capacityValues, List.filter_append, List.map_append]

/-- Foreign members give no value for the capacity. -/
theorem capacityValues_of_foreign {ms : List Member} (h : ∀ m ∈ ms, Foreign m) :
    capacityValues (ms.map Member.entry) = [] := by
  induction ms with
  | nil => rfl
  | cons m ms ih =>
    obtain ⟨hm, hms⟩ := List.forall_mem_cons.1 h
    rw [List.map_cons, capacityValues_cons, ih hms, List.append_nil]
    exact capacityValues_of_not_names hm.not_names _

/-- The own member of a configuration gives its capacity. -/
theorem Own.capacityValues_eq {c : ListConfig} {m : Member} (h : Own c m) :
    capacityValues [m.entry] = [Nat.toDigits 10 c.capacity.toNat] := by
  rw [Member.entry, h.name, h.value, capacityValues_of_names namesCapacity_capacity, Text.natural,
    String.toList_ofList]

/-- A configuration is read from every text of it. -/
theorem Embeds.ofJson_eq {c : ListConfig} {text : String} (h : Embeds c text.toList) :
    ofJson text = .ok c := by
  obtain @⟨_, _, _, front, back, own, hbefore, hblank, hfront, hown, hback, hafter, hcs⟩ := h
  have hproper : ∀ m ∈ front ++ own :: back, m.Proper := by
    refine List.forall_mem_append.2 ⟨fun m hm => (hfront m hm).proper, ?_⟩
    exact List.forall_mem_cons.2 ⟨hown.proper, fun m hm => (hback m hm).proper⟩
  have hvalues : capacityValues ((front ++ own :: back).map Member.entry) =
      [Nat.toDigits 10 c.capacity.toNat] := by
    rw [List.map_append, List.map_cons, capacityValues_append, capacityValues_cons,
      capacityValues_of_foreign hfront, capacityValues_of_foreign hback, hown.capacityValues_eq]
    rfl
  refine (ofJson_eq_ok_iff_of_isObject (.intro hbefore hblank hproper hafter hcs)).2 ?_
  rw [hvalues]
  exact .given (spellsInteger_toDigits _)

/-! ### Canonical texts -/

/-- What is written is canonical. -/
theorem canonical_toJson (c : ListConfig) : Canonical (toJson c).toList := by
  rw [toList_toJson]
  exact .intro (spellsInteger_toDigits _) c.capacity.toNat_lt

/-- A canonical text is that of a configuration. -/
theorem exists_toJson_of_canonical {text : String} (h : Canonical text.toList) :
    ∃ c, toJson c = text := by
  generalize hcs : text.toList = cs at h
  obtain @⟨s, n, hs, hn⟩ := h
  refine ⟨⟨UInt64.ofNat n⟩, String.toList_inj.1 ?_⟩
  rw [toList_toJson, UInt64.toNat_ofNat_of_lt' hn, ← hs.eq_toDigits, hcs]

/-- A text stays what it is when it is rewritten if and only if it is canonical. -/
theorem rewrite_eq_self_iff {text : String} : rewrite text = .ok text ↔ Canonical text.toList := by
  constructor
  · intro h
    obtain ⟨c, -, hc⟩ := ok_of_map h
    rw [← hc]
    exact canonical_toJson c
  · intro h
    obtain ⟨c, rfl⟩ := exists_toJson_of_canonical h
    rw [rewrite, (embeds_toJson c).ofJson_eq]
    rfl

/-- A configuration is read from each of its texts: from those that it is written as, and from those with
white space between the tokens and with other members in front of and behind its own. A text that is read
as a configuration is rewritten as a canonical one, which is read as the same configuration and rewritten
as itself; and only the canonical texts are rewritten as themselves. -/
theorem round_trips :
    (∀ c, ofJson (toJson c) = .ok c ∧ ofJson (toPrettyJson c) = .ok c ∧ Embeds c (toJson c).toList) ∧
      (∀ c text, Embeds c text.toList → ofJson text = .ok c) ∧
      (∀ text c, ofJson text = .ok c →
        rewrite text = .ok (toJson c) ∧ Canonical (toJson c).toList ∧
          ofJson (toJson c) = ofJson text ∧ rewrite (toJson c) = .ok (toJson c)) ∧
      ∀ text, rewrite text = .ok text ↔ Canonical text.toList := by
  have hread : ∀ c text, Embeds c text.toList → ofJson text = .ok c := fun c text h => h.ofJson_eq
  refine ⟨fun c => ?_, hread, fun text c h => ?_, fun _ => rewrite_eq_self_iff⟩
  · exact ⟨hread c _ (embeds_toJson c), hread c _ (embeds_toPrettyJson c), embeds_toJson c⟩
  · have hcanonical := canonical_toJson c
    refine ⟨?_, hcanonical, ?_, rewrite_eq_self_iff.2 hcanonical⟩
    · rw [rewrite, h]
      rfl
    · rw [h, hread c _ (embeds_toJson c)]

/-- The largest capacity there is, between a member with another capacity inside of it and one whose name
is spelled with an escape. -/
theorem round_trips_largest :
    ∃ c text, c = ⟨18446744073709551615⟩ ∧
      text = "\x7b \"x\":\x7b\"capacity\":0\x7d,\"capacity\"\t: 18446744073709551615,\"\\u0063\":\"\"\x7d\n" ∧
      Embeds c text.toList ∧ ofJson text = .ok c ∧
      rewrite text = .ok "\x7b\"capacity\":18446744073709551615\x7d" ∧
      rewrite "\x7b\"capacity\":18446744073709551615\x7d" =
        .ok "\x7b\"capacity\":18446744073709551615\x7d" := by
  have hblank : Blank [] := List.forall_mem_nil _
  have hinner : WellFormed (objectText [] [⟨[], "capacity".toList, [], [], ['0'], []⟩]) := by
    refine .object hblank ?_ ?_ ?_
    · exact List.forall_mem_singleton.2 ⟨hblank, hblank, hblank, hblank⟩
    · exact List.forall_mem_singleton.2 (Denotes.spells namesCapacity_capacity)
    · exact List.forall_mem_singleton.2 (spellsInteger_toDigits 0).wellFormed
  have hx : Denotes ['x'] ['x'] := .plain ⟨by decide, by decide, by decide⟩ .nil
  have hfront : Foreign ⟨[' '], ['x'], [], [], _, []⟩ :=
    ⟨⟨by decide, hblank, hblank, hblank⟩, ⟨_, hx, by decide⟩, hinner⟩
  have hown := own_of_blank ⟨18446744073709551615⟩ hblank (show Blank ['\t'] by decide)
    (show Blank [' '] by decide) hblank
  have hback : Foreign ⟨[], "\\u0063".toList, [], [], "\"\"".toList, []⟩ :=
    ⟨⟨hblank, hblank, hblank, hblank⟩, ⟨['c'], by decide +kernel, by decide⟩, .string .nil⟩
  have hembeds : Embeds ⟨18446744073709551615⟩
      "\x7b \"x\":\x7b\"capacity\":0\x7d,\"capacity\"\t: 18446744073709551615,\"\\u0063\":\"\"\x7d\n".toList :=
    .intro hblank hblank (List.forall_mem_singleton.2 hfront) hown (List.forall_mem_singleton.2 hback)
      (show Blank ['\n'] by decide) (by decide +kernel)
  have hjson : toJson ⟨18446744073709551615⟩ = "\x7b\"capacity\":18446744073709551615\x7d" := by
    decide +kernel
  obtain ⟨-, hread, hrewrite, -⟩ := round_trips
  have hfound := hread _ _ hembeds
  obtain ⟨hcanonical, -, -, hagain⟩ := hrewrite _ _ hfound
  rw [hjson] at hcanonical hagain
  exact ⟨_, _, rfl, rfl, hembeds, hfound, hcanonical, hagain⟩

end ListConfig

end SlotChain

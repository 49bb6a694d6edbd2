import SlotChain.ListConfig
import SlotChain.Proofs.JsonMembers
import SlotChain.Proofs.Outcomes

/-!
# Which texts configure a list

A configuration is read from an object or from an array. An object gives the capacity by the values of the
members whose names denote that word, however it is spelled; an array gives it by its elements. There may
be one value at most, and it has to be an integer literal within a machine word; without any the capacity
is zero. All other members are only looked at for their form.
-/

namespace SlotChain.ListConfig

open Json

/-! ### What a text says about the capacity -/

/-- The name of a member is a spelling of the name of the capacity. -/
def NamesCapacity (name : List Char) : Prop := Denotes name "capacity".toList

theorem namesCapacity_iff {name : List Char} :
    (readString (name ++ ['"'])).toOption = some ("capacity".toList, []) ↔ NamesCapacity name :=
  denotes_iff

theorem namesCapacity_iff_of_denotes {name text : List Char} (h : Denotes name text) :
    NamesCapacity name ↔ text = capacityName := by
  constructor
  · exact h.unique
  · rintro rfl
    exact h

instance (name : List Char) : Decidable (NamesCapacity name) := decidable_of_iff _ namesCapacity_iff

/-- The values that the entries of an object give for the capacity. -/
def capacityValues (entries : List (List Char × List Char)) : List (List Char) :=
  (entries.filter fun entry => NamesCapacity entry.1).map Prod.snd

/-- The capacity that the values given for it settle. -/
inductive Settles : List (List Char) → Nat → Prop
  | absent : Settles [] 0
  | given {value : List Char} {n : Nat} (h : SpellsInteger value n) : Settles [value] n

/-- What values add to a capacity that may have been given before them. -/
inductive Gives : Option Nat → List (List Char) → Option Nat → Prop
  | nothing {capacity : Option Nat} : Gives capacity [] capacity
  | once {value : List Char} {n : Nat} (h : SpellsInteger value n) (hn : n < wordLimit) :
    Gives none [value] (some n)

theorem capacityValues_cons (entry : List Char × List Char) (entries : List (List Char × List Char)) :
    capacityValues (entry :: entries) = capacityValues [entry] ++ capacityValues entries := by
  rw [← List.singleton_append, capacityValues, List.filter_append, List.map_append]
  rfl

theorem capacityValues_of_names {name : List Char} (h : NamesCapacity name) (value : List Char) :
    capacityValues [(name, value)] = [value] := by
  simp [capacityValues, h]

theorem capacityValues_of_not_names {name : List Char} (h : ¬ NamesCapacity name)
    (value : List Char) : capacityValues [(name, value)] = [] := by
  simp [capacityValues, h]

/-- Values one behind the other add up. -/
theorem gives_append {before after : Option Nat} {values more : List (List Char)} :
    Gives before (values ++ more) after ↔ ∃ between, Gives before values between ∧
      Gives between more after := by
  constructor
  · intro h
    cases values with
    | nil => exact ⟨before, .nothing, h⟩
    | cons value values =>
      rw [List.cons_append] at h
      generalize hall : values ++ more = all at h
      cases h with
      | once h hn =>
        obtain ⟨rfl, rfl⟩ := List.append_eq_nil_iff.1 hall
        exact ⟨_, .once h hn, .nothing⟩
  · rintro ⟨between, hvalues, hmore⟩
    cases hvalues with
    | nothing => exact hmore
    | once h hn =>
      cases hmore with
      | nothing => exact .once h hn

/-- A capacity is settled exactly if it is a machine word and the values give it. -/
theorem settles_iff {values : List (List Char)} {c : UInt64} :
    Settles values c.toNat ↔ ∃ given, Gives none values given ∧ UInt64.ofNat (given.getD 0) = c := by
  constructor
  · intro h
    generalize hc : c.toNat = n at h
    cases h with
    | absent =>
      refine ⟨none, .nothing, ?_⟩
      rw [Option.getD_none, ← hc, UInt64.ofNat_toNat]
    | given h =>
      refine ⟨some n, .once h (hc ▸ c.toNat_lt), ?_⟩
      rw [Option.getD_some, ← hc, UInt64.ofNat_toNat]
  · rintro ⟨given, hgiven, rfl⟩
    cases hgiven with
    | nothing => exact .absent
    | once h hn =>
      rw [Option.getD_some, UInt64.toNat_ofNat_of_lt' hn]
      exact .given h

/-! ### The value of the capacity -/

theorem fromJson_eq_ok {β : Type} {r : Except Flaw β} {b : β} : fromJson r = .ok b ↔ r = .ok b := by
  cases r with
  | error flaw => exact ⟨nofun, nofun⟩
  | ok p =>
    have h : fromJson (.ok p : Except Flaw β) = .ok p := rfl
    rw [h, Except.ok.injEq, Except.ok.injEq]

/-- Nothing is read in place of what was expected. -/
theorem refuse_ne_ok {β : Type} (expected : Expected) (cs : List Char) (b : β) :
    refuse expected cs ≠ .ok b := by
  rw [refuse]
  split <;> exact nofun

/-- An integer literal within a machine word is read for its value. -/
theorem readCapacity_of_spells {b s rest : List Char} {n : Nat} (hb : Blank b)
    (hs : SpellsInteger s n) (hn : n < wordLimit) (hrest : EndsNumber rest) :
    readCapacity (b ++ (s ++ rest)) = .ok (n, rest) := by
  have hread := readNumber_of_spells hs hn hrest
  obtain ⟨c, t, hc, rfl⟩ := hs.whole.exists_digit
  rw [List.cons_append] at hread ⊢
  have hfront : frontNumber (c :: (t ++ rest)) = readNumber false (c :: (t ++ rest)) :=
    frontNumber.eq_2 _ (by
      intro cs h
      cases h
      cases hc)
  rw [readCapacity, skipBlank_front hb (isBlank_of_isDigit hc)]
  simp only [hc, or_true, if_true, hfront, hread]

theorem spells_of_frontNumber {cs rest : List Char} {n : Nat}
    (h : frontNumber cs = .ok (.unsigned n, rest)) :
    n < wordLimit ∧ ∃ s, SpellsInteger s n ∧ cs = s ++ rest := by
  unfold frontNumber at h
  split at h
  · cases (spells_of_readNumber h).1
  · exact (spells_of_readNumber h).2

/-- What is read as the capacity is an integer literal within a machine word. -/
theorem spells_of_readCapacity {cs rest : List Char} {n : Nat} (h : readCapacity cs = .ok (n, rest)) :
    ∃ b s, Blank b ∧ SpellsInteger s n ∧ n < wordLimit ∧ cs = b ++ (s ++ rest) := by
  obtain ⟨b, hb, hcs⟩ := exists_blank cs
  rw [readCapacity] at h
  split at h
  · cases h
  · rename_i c t hfront
    split at h
    · split at h
      · cases h
      · rename_i hnumber
        cases h
        obtain ⟨hn, s, hs, hfound⟩ := spells_of_frontNumber hnumber
        exact ⟨b, s, hb, hs, hn, by rw [hcs, hfront, hfound]⟩
      · cases h
      · cases h
    · exact absurd h (refuse_ne_ok _ _ _)

/-! ### Members and elements -/

/-- Read one member, behind the quotation mark of its name. -/
def readMember (capacity : Option Nat) (cs : List Char) : Except ConfigError (Option Nat × List Char) := do
  let (name, cs) ← fromJson (readString cs)
  if name = capacityName then
    match capacity with
    | some _ => .error .duplicateCapacity
    | none => do
      let (n, cs) ← readCapacity (← fromJson (readColon cs))
      pure (some n, cs)
  else do
    let cs ← fromJson (readColon cs)
    let cs ← fromJson (skipValue cs)
    pure (capacity, cs)

/-- Go on behind a member. -/
def readFurther (n : Nat) (capacity : Option Nat) (cs : List Char) :
    Except ConfigError (Option Nat × List Char) :=
  match skipBlank cs with
  | '\x7d' :: rest => .ok (capacity, rest)
  | ',' :: rest => do readMembers n capacity (← fromJson (openName rest))
  | [] => flawed .ended
  | _ => flawed .malformed

/-- Members are read one by one up to the closing brace. -/
theorem readMembers_succ (n : Nat) (capacity : Option Nat) (cs : List Char) :
    readMembers (n + 1) capacity cs =
      readMember capacity cs >>= fun (capacity, cs) => readFurther n capacity cs := by
  rw [readMembers, readMember]
  cases fromJson (readString cs) with
  | error e => rfl
  | ok p =>
    obtain ⟨name, cs⟩ := p
    by_cases hname : name = capacityName
    · subst hname
      cases capacity with
      | some n => rfl
      | none =>
        cases hcolon : fromJson (readColon cs) with
        | error e => simp only [bind, Except.bind, if_true, hcolon]
        | ok cs =>
          cases hvalue : readCapacity cs with
          | error e => simp only [bind, Except.bind, if_true, hcolon, hvalue]
          | ok p =>
            simp only [bind, Except.bind, if_true, hcolon, hvalue]
            rfl
    · cases hcolon : fromJson (readColon cs) with
      | error e => simp only [bind, Except.bind, if_neg hname, hcolon]
      | ok cs =>
        cases hvalue : fromJson (skipValue cs) with
        | error e => simp only [bind, Except.bind, if_neg hname, hcolon, hvalue]
        | ok p =>
          simp only [bind, Except.bind, if_neg hname, hcolon, hvalue]
          rfl

/-- A member is read up to what stands behind its value. -/
theorem readMember_of_proper {m : Member} (hm : m.Proper) {before after : Option Nat}
    (hgives : Gives before (capacityValues [m.entry]) after) {rest : List Char}
    (hrest : EndsNumber rest) :
    readMember before (m.name ++ '"' :: (m.between ++ ':' :: (m.element.text ++ rest))) =
      .ok (after, m.element.after ++ rest) := by
  obtain ⟨hspaced, ⟨text, hname⟩, hvalue⟩ := hm
  have hread : readString (m.name ++ '"' :: (m.between ++ ':' :: (m.element.text ++ rest))) =
      .ok (text, m.between ++ ':' :: (m.element.text ++ rest)) := readString_iff.2 ⟨_, hname, rfl⟩
  have hcolon := hspaced.readColon rest
  have hends := endsNumber_append hspaced.element.after hrest
  have htext : m.element.text ++ rest =
      m.element.before ++ (m.element.value ++ (m.element.after ++ rest)) := by
    rw [Element.text, List.append_assoc, List.append_assoc]
  rw [htext] at hread hcolon ⊢
  refine bind_eq_ok.2 ⟨_, fromJson_eq_ok.2 hread, ?_⟩
  by_cases hcapacity : NamesCapacity m.name
  · rw [Member.entry, capacityValues_of_names hcapacity] at hgives
    refine (if_pos ((namesCapacity_iff_of_denotes hname).1 hcapacity)).trans ?_
    cases hgives with
    | once hs hn =>
      refine bind_eq_ok.2 ⟨_, fromJson_eq_ok.2 hcolon, ?_⟩
      exact bind_eq_ok.2 ⟨_, readCapacity_of_spells hspaced.element.before hs hn hends, rfl⟩
  · rw [Member.entry, capacityValues_of_not_names hcapacity] at hgives
    refine (if_neg (mt (namesCapacity_iff_of_denotes hname).2 hcapacity)).trans ?_
    cases hgives with
    | nothing =>
      refine bind_eq_ok.2 ⟨_, fromJson_eq_ok.2 hcolon, ?_⟩
      exact bind_eq_ok.2 ⟨_, fromJson_eq_ok.2 (hvalue.skipValue hspaced.element.before hends), rfl⟩

/-- What is read as a member is one. -/
theorem proper_of_readMember {before after : Option Nat} {cs rest : List Char}
    (h : readMember before cs = .ok (after, rest)) :
    ∃ name between front value, (∃ text, Denotes name text) ∧ Blank between ∧ Blank front ∧
      WellFormed value ∧ Gives before (capacityValues [(name, value)]) after ∧
      cs = name ++ '"' :: (between ++ ':' :: (front ++ (value ++ rest))) := by
  obtain ⟨⟨text, afterName⟩, hread, hvalue⟩ := bind_eq_ok.1 h
  obtain ⟨name, hname, rfl⟩ := readString_iff.1 (fromJson_eq_ok.1 hread)
  have hnames := namesCapacity_iff_of_denotes hname
  by_cases htext : text = capacityName
  · simp only [htext, if_true] at hvalue
    split at hvalue
    · cases hvalue
    · obtain ⟨afterColon, hcolon, hbehind⟩ := bind_eq_ok.1 hvalue
      obtain ⟨⟨n, afterValue⟩, hcapacity, hend⟩ := bind_eq_ok.1 hbehind
      cases hend
      obtain ⟨between, hbetween, rfl⟩ := readColon_iff.1 (fromJson_eq_ok.1 hcolon)
      obtain ⟨front, s, hfront, hs, hn, rfl⟩ := spells_of_readCapacity hcapacity
      refine ⟨name, between, front, s, ⟨_, hname⟩, hbetween, hfront, hs.wellFormed, ?_, rfl⟩
      rw [capacityValues_of_names (hnames.2 htext)]
      exact .once hs hn
  · simp only [htext, if_false] at hvalue
    obtain ⟨afterColon, hcolon, hbehind⟩ := bind_eq_ok.1 hvalue
    obtain ⟨afterValue, hskip, hend⟩ := bind_eq_ok.1 hbehind
    cases hend
    obtain ⟨between, hbetween, rfl⟩ := readColon_iff.1 (fromJson_eq_ok.1 hcolon)
    obtain ⟨front, s, hfront, hs, rfl⟩ := wellFormed_of_skipValue (fromJson_eq_ok.1 hskip)
    refine ⟨name, between, front, s, ⟨_, hname⟩, hbetween, hfront, hs, ?_, rfl⟩
    rw [capacityValues_of_not_names (mt hnames.1 htext)]
    exact .nothing

/-! ### Objects and arrays -/

/-- What is read as members with the given bound are members, at least one, and they give the capacity. -/
def MembersGive (n : Nat) : Prop :=
  ∀ before after cs rest, readMembers n before cs = .ok (after, rest) → ∀ b, Blank b →
    ∃ m ms, (∀ x ∈ m :: ms, x.Proper) ∧
      Gives before (capacityValues ((m :: ms).map Member.entry)) after ∧
      b ++ '"' :: cs = separated ((m :: ms).map Member.text) ++ '\x7d' :: rest

/-- What is read behind a member are the members that follow it, and they give the capacity. -/
theorem gives_of_readFurther {n : Nat} (hmembers : MembersGive n) {before after : Option Nat}
    {cs rest : List Char} (h : readFurther n before cs = .ok (after, rest)) :
    ∃ (b : List Char) (ms : List Member), Blank b ∧ (∀ m ∈ ms, m.Proper) ∧
      Gives before (capacityValues (ms.map Member.entry)) after ∧
      cs = b ++ following '\x7d' rest (ms.map Member.text) := by
  rw [readFurther] at h
  split at h
  · rename_i hclose
    cases h
    obtain ⟨b, hb, rfl⟩ := (skipBlank_eq_cons (by decide)).1 hclose
    exact ⟨b, [], hb, List.forall_mem_nil _, .nothing, rfl⟩
  · rename_i hcomma
    obtain ⟨b, hb, rfl⟩ := (skipBlank_eq_cons (by decide)).1 hcomma
    obtain ⟨behindName, hopen, hread⟩ := bind_eq_ok.1 h
    obtain ⟨front, hfront, rfl⟩ := openName_iff.1 (fromJson_eq_ok.1 hopen)
    obtain ⟨m, ms, hms, hgives, htexts⟩ := hmembers _ _ _ _ hread front hfront
    exact ⟨b, m :: ms, hb, hms, hgives, by rw [htexts, List.map_cons, following]⟩
  · cases h
  · cases h

theorem membersGive (n : Nat) : MembersGive n := by
  induction n with
  | zero =>
    intro before after cs rest h
    cases h
  | succ n ih =>
    intro before after cs rest h b hb
    rw [readMembers_succ] at h
    obtain ⟨⟨between, behind⟩, hmember, hfurther⟩ := bind_eq_ok.1 h
    obtain ⟨name, gap, front, value, hname, hgap, hfront, hvalue, hgives, rfl⟩ :=
      proper_of_readMember hmember
    obtain ⟨b', ms, hb', hms, hmore, rfl⟩ := gives_of_readFurther ih hfurther
    refine ⟨⟨b, name, gap, front, value, b'⟩, ms,
      List.forall_mem_cons.2 ⟨⟨⟨hb, hgap, hfront, hb'⟩, hname, hvalue⟩, hms⟩, ?_, ?_⟩
    · rw [List.map_cons, capacityValues_cons]
      exact gives_append.2 ⟨_, hgives, hmore⟩
    · rw [List.map_cons, separated_append]
      simp [Member.text, Element.text]

/-- A member is read, and the reading goes on behind it. -/
theorem readMembers_member {m : Member} (hm : m.Proper) {before after : Option Nat}
    (hgives : Gives before (capacityValues [m.entry]) after) (n : Nat) {rest : List Char}
    (hrest : EndsNumber rest) :
    readMembers (n + 1) before (m.name ++ '"' :: (m.between ++ ':' :: (m.element.text ++ rest))) =
      readFurther n after rest := by
  have hfurther : readMembers (n + 1) before
      (m.name ++ '"' :: (m.between ++ ':' :: (m.element.text ++ rest))) =
        readFurther n after (m.element.after ++ rest) := by
    rw [readMembers_succ, readMember_of_proper hm hgives hrest]
    rfl
  rw [hfurther, readFurther, readFurther, skipBlank_append hm.spaced.element.after]

/-- Members are read up to the closing brace. -/
theorem readMembers_of_proper {m : Member} {ms : List Member} (hms : ∀ x ∈ m :: ms, x.Proper) {n : Nat}
    (hn : ms.length < n) {before after : Option Nat}
    (hgives : Gives before (capacityValues ((m :: ms).map Member.entry)) after) (rest : List Char) :
    ∃ cs, openName (separated ((m :: ms).map Member.text) ++ '\x7d' :: rest) = .ok cs ∧
      readMembers n before cs = .ok (after, rest) := by
  induction ms generalizing m n before with
  | nil =>
    obtain ⟨n, rfl⟩ := Nat.exists_eq_add_one_of_ne_zero (Nat.ne_zero_of_lt hn)
    obtain ⟨hm, -⟩ := List.forall_mem_cons.1 hms
    rw [List.map_cons, separated_append]
    refine ⟨_, hm.spaced.openName _, ?_⟩
    rw [readMembers_member hm hgives n (endsNumber_following (by decide) _ _)]
    rfl
  | cons m' ms ih =>
    obtain ⟨n, rfl⟩ := Nat.exists_eq_add_one_of_ne_zero (Nat.ne_zero_of_lt hn)
    obtain ⟨hm, hms⟩ := List.forall_mem_cons.1 hms
    rw [List.map_cons, capacityValues_cons] at hgives
    obtain ⟨between, hgives, hmore⟩ := gives_append.1 hgives
    obtain ⟨cs, hopen, hread⟩ := ih hms (Nat.lt_of_succ_lt_succ hn) hmore
    rw [List.map_cons, separated_append]
    refine ⟨_, hm.spaced.openName _, ?_⟩
    rw [readMembers_member hm hgives n (endsNumber_following (by decide) _ _)]
    exact bind_eq_ok.2 ⟨cs, fromJson_eq_ok.2 hopen, hread⟩

/-- What is read as an object is one, and its members give the capacity. -/
theorem proper_of_readObject {cs rest : List Char} {given : Option Nat}
    (h : readObject cs = .ok (given, rest)) :
    ∃ blank ms, Blank blank ∧ (∀ m ∈ ms, m.Proper) ∧
      Gives none (capacityValues (ms.map Member.entry)) given ∧
      '\x7b' :: cs = objectText blank ms ++ rest := by
  obtain ⟨blank, hblank, hcs⟩ := exists_blank cs
  rw [readObject] at h
  split at h
  · rename_i hclose
    cases h
    refine ⟨blank, [], hblank, List.forall_mem_nil _, .nothing, ?_⟩
    rw [hcs, hclose]
    simp [objectText, separated]
  · obtain ⟨behindName, hopen, hmembers⟩ := bind_eq_ok.1 h
    obtain ⟨b, hb, hname⟩ := openName_iff.1 (fromJson_eq_ok.1 hopen)
    obtain ⟨m, ms, hms, hgives, htexts⟩ := membersGive _ _ _ _ _ hmembers b hb
    refine ⟨blank, m :: ms, hblank, hms, hgives, ?_⟩
    rw [hcs, hname, htexts]
    simp [objectText]

/-- An object is read if its members give the capacity. -/
theorem readObject_of_proper {blank : List Char} {ms : List Member} (hblank : Blank blank)
    (hms : ∀ m ∈ ms, m.Proper) {given : Option Nat}
    (hgives : Gives none (capacityValues (ms.map Member.entry)) given) (rest : List Char) :
    readObject (blank ++ (separated (ms.map Member.text) ++ '\x7d' :: rest)) = .ok (given, rest) := by
  cases ms with
  | nil =>
    cases hgives with
    | nothing =>
      have hclose : skipBlank (blank ++ (separated [] ++ '\x7d' :: rest)) = '\x7d' :: rest :=
        skipBlank_front hblank (by decide) rest
      rw [List.map_nil, readObject, hclose]
      rfl
  | cons m ms =>
    have hm := hms m List.mem_cons_self
    have hlength := length_lt_following '\x7d' rest (ms.map Member.text)
    have hfront : skipBlank (blank ++ (separated ((m :: ms).map Member.text) ++ '\x7d' :: rest)) =
        '"' :: (m.name ++ '"' :: (m.between ++ ':' :: (m.element.text ++
          following '\x7d' rest (ms.map Member.text)))) := by
      rw [skipBlank_append hblank, List.map_cons, separated_append, Member.text, List.append_assoc,
        skipBlank_append hm.spaced.before, List.cons_append, skipBlank_cons (by decide)]
      simp only [List.append_assoc, List.cons_append]
    have hbound : ms.length < ('"' :: (m.name ++ '"' :: (m.between ++ ':' :: (m.element.text ++
        following '\x7d' rest (ms.map Member.text))))).length := by
      simp only [List.length_cons, List.length_append, List.length_map] at hlength ⊢
      omega
    obtain ⟨cs, hopen, hread⟩ := readMembers_of_proper hms hbound hgives rest
    rw [← openName_skipBlank, ← skipBlank_append hblank, openName_skipBlank] at hopen
    rw [readObject, hfront]
    refine bind_eq_ok.2 ⟨cs, fromJson_eq_ok.2 ?_, hread⟩
    rw [← hfront, openName_skipBlank, hopen]

/-- What is read as an array is one, and its elements give the capacity. -/
theorem proper_of_readArray {cs rest : List Char} {given : Option Nat}
    (h : readArray cs = .ok (given, rest)) :
    ∃ blank es, Blank blank ∧ (∀ e ∈ es, e.Proper) ∧ Gives none (es.map Element.value) given ∧
      '[' :: cs = arrayText blank es ++ rest := by
  obtain ⟨blank, hblank, hcs⟩ := exists_blank cs
  rw [readArray] at h
  split at h
  · rename_i hclose
    cases h
    refine ⟨blank, [], hblank, List.forall_mem_nil _, .nothing, ?_⟩
    rw [hcs, hclose]
    simp [arrayText, separated]
  · cases h
  · obtain ⟨⟨n, behind⟩, hcapacity, hend⟩ := bind_eq_ok.1 h
    obtain ⟨b, s, hb, hs, hn, hvalue⟩ := spells_of_readCapacity hcapacity
    simp only at hend
    split at hend
    · rename_i hclose
      cases hend
      obtain ⟨b', hb', rfl⟩ := (skipBlank_eq_cons (by decide)).1 hclose
      refine ⟨blank, [⟨b, s, b'⟩], hblank, List.forall_mem_singleton.2 ⟨⟨hb, hb'⟩, hs.wellFormed⟩,
        .once hs hn, ?_⟩
      rw [hcs, hvalue]
      simp [arrayText, Element.text, separated]
    · cases hend
    · cases hend

/-- An array is read if its elements give the capacity. -/
theorem readArray_of_proper {blank : List Char} {es : List Element} (hblank : Blank blank)
    (hes : ∀ e ∈ es, e.Proper) {given : Option Nat} (hgives : Gives none (es.map Element.value) given)
    (rest : List Char) :
    readArray (blank ++ (separated (es.map Element.text) ++ ']' :: rest)) = .ok (given, rest) := by
  match es, hgives with
  | [], .nothing =>
    have hclose : skipBlank (blank ++ (separated [] ++ ']' :: rest)) = ']' :: rest :=
      skipBlank_front hblank (by decide) rest
    rw [List.map_nil, readArray, hclose]
    rfl
  | [e], .once hs hn =>
    obtain ⟨⟨hbefore, hafter⟩, -⟩ := List.forall_mem_singleton.1 hes
    have hclose := skipBlank_front hafter (by decide : isBlank ']' = false) rest
    have hends : EndsNumber (e.after ++ ']' :: rest) :=
      endsNumber_append hafter (endsNumber_cons (by decide) rest)
    have hread := readCapacity_of_spells (List.forall_mem_nil _) hs hn hends
    obtain ⟨c, t, hc, hvalue⟩ := hs.whole.exists_digit
    rw [List.map_singleton, separated_singleton, Element.text, List.append_assoc, List.append_assoc,
      readArray, skipBlank_append hblank, skipBlank_append hbefore, hvalue, List.cons_append,
      skipBlank_cons (isBlank_of_isDigit hc)]
    rw [hvalue, List.nil_append, List.cons_append] at hread
    split
    · rename_i heq
      cases heq
      cases hc
    · rename_i heq
      cases heq
    · refine bind_eq_ok.2 ⟨_, hread, ?_⟩
      simp only [hclose]

/-! ### Whole texts -/

/-- What is read in front of a text is an object or an array that gives the capacity. -/
theorem gives_of_read {cs rest : List Char} {given : Option Nat} (h : read cs = .ok (given, rest))
    (hrest : Blank rest) :
    (∃ ms, IsObject cs ms ∧ Gives none (capacityValues (ms.map Member.entry)) given) ∨
      ∃ es, IsArray cs es ∧ Gives none (es.map Element.value) given := by
  obtain ⟨before, hbefore, hcs⟩ := exists_blank cs
  rw [read] at h
  split at h
  · cases h
  · rename_i hfront
    obtain ⟨blank, es, hblank, hes, hgives, htext⟩ := proper_of_readArray h
    exact .inr ⟨es, .intro hbefore hblank hes hrest (by rw [← htext, ← hfront, ← hcs]), hgives⟩
  · rename_i hfront
    obtain ⟨blank, ms, hblank, hms, hgives, htext⟩ := proper_of_readObject h
    exact .inl ⟨ms, .intro hbefore hblank hms hrest (by rw [← htext, ← hfront, ← hcs]), hgives⟩
  · exact absurd h (refuse_ne_ok _ _ _)

/-- An object is read if its members give the capacity. -/
theorem read_of_isObject {cs : List Char} {ms : List Member} (h : IsObject cs ms) {given : Option Nat}
    (hgives : Gives none (capacityValues (ms.map Member.entry)) given) :
    ∃ rest, read cs = .ok (given, rest) ∧ Blank rest := by
  obtain ⟨hbefore, hblank, hms, hafter, rfl⟩ := h
  refine ⟨_, ?_, hafter⟩
  rw [objectText, List.cons_append, List.append_assoc, List.append_assoc, List.singleton_append, read,
    skipBlank_front hbefore (by decide)]
  exact readObject_of_proper hblank hms hgives _

/-- An array is read if its elements give the capacity. -/
theorem read_of_isArray {cs : List Char} {es : List Element} (h : IsArray cs es) {given : Option Nat}
    (hgives : Gives none (es.map Element.value) given) :
    ∃ rest, read cs = .ok (given, rest) ∧ Blank rest := by
  obtain ⟨hbefore, hblank, hes, hafter, rfl⟩ := h
  refine ⟨_, ?_, hafter⟩
  rw [arrayText, List.cons_append, List.append_assoc, List.append_assoc, List.singleton_append, read,
    skipBlank_front hbefore (by decide)]
  exact readArray_of_proper hblank hes hgives _

/-- Only white space may stand behind a configuration. -/
theorem ofJson_eq_ok {text : String} {c : UInt64} :
    ofJson text = .ok ⟨c⟩ ↔ ∃ given rest, read text.toList = .ok (given, rest) ∧ Blank rest ∧
      UInt64.ofNat (given.getD 0) = c := by
  constructor
  · intro h
    obtain ⟨⟨given, rest⟩, hread, hend⟩ := bind_eq_ok.1 h
    simp only at hend
    split at hend
    · rename_i hblank
      cases hend
      exact ⟨given, rest, hread, skipBlank_eq_nil.1 hblank, rfl⟩
    · cases hend
  · rintro ⟨given, rest, hread, hblank, rfl⟩
    refine bind_eq_ok.2 ⟨_, hread, ?_⟩
    simp only [skipBlank_eq_nil.2 hblank]
    rfl

/-- A text configures a list exactly if it is an object or an array that settles the capacity. -/
theorem ofJson_eq_ok_iff_settles {text : String} {c : UInt64} :
    ofJson text = .ok ⟨c⟩ ↔
      (∃ ms, IsObject text.toList ms ∧ Settles (capacityValues (ms.map Member.entry)) c.toNat) ∨
        ∃ es, IsArray text.toList es ∧ Settles (es.map Element.value) c.toNat := by
  rw [ofJson_eq_ok]
  constructor
  · rintro ⟨given, rest, hread, hblank, hc⟩
    obtain ⟨ms, hobject, hgives⟩ | ⟨es, harray, hgives⟩ := gives_of_read hread hblank
    · exact .inl ⟨ms, hobject, settles_iff.2 ⟨given, hgives, hc⟩⟩
    · exact .inr ⟨es, harray, settles_iff.2 ⟨given, hgives, hc⟩⟩
  · rintro (⟨ms, hobject, hsettles⟩ | ⟨es, harray, hsettles⟩)
    · obtain ⟨given, hgives, hc⟩ := settles_iff.1 hsettles
      obtain ⟨rest, hread, hblank⟩ := read_of_isObject hobject hgives
      exact ⟨given, rest, hread, hblank, hc⟩
    · obtain ⟨given, hgives, hc⟩ := settles_iff.1 hsettles
      obtain ⟨rest, hread, hblank⟩ := read_of_isArray harray hgives
      exact ⟨given, rest, hread, hblank, hc⟩

/-- Whatever members an object is read as, they decide about the capacity. -/
theorem ofJson_eq_ok_iff_of_isObject {text : String} {ms : List Member}
    (h : IsObject text.toList ms) {c : UInt64} :
    ofJson text = .ok ⟨c⟩ ↔ Settles (capacityValues (ms.map Member.entry)) c.toNat := by
  rw [ofJson_eq_ok_iff_settles]
  constructor
  · rintro (⟨ms', h', hsettles⟩ | ⟨es, harray, -⟩)
    · rwa [h.entries_eq h']
    · exact absurd harray (h.not_isArray es)
  · exact fun hsettles => .inl ⟨ms, h, hsettles⟩

/-- Which JSON texts configure a list, and with which capacity. An object settles it by the members that
name it, and an array by its elements; two objects whose members give the same values for it are
alike, whatever else they hold and however they are spaced. -/
theorem ofJson_eq_ok_iff (text : String) (c : UInt64) :
    (ofJson text = .ok ⟨c⟩ ↔
      (∃ ms, IsObject text.toList ms ∧ Settles (capacityValues (ms.map Member.entry)) c.toNat) ∨
        ∃ es, IsArray text.toList es ∧ Settles (es.map Element.value) c.toNat) ∧
    ∀ (text' : String) (ms ms' : List Member), IsObject text.toList ms → IsObject text'.toList ms' →
      capacityValues (ms.map Member.entry) = capacityValues (ms'.map Member.entry) →
      (ofJson text = .ok ⟨c⟩ ↔ ofJson text' = .ok ⟨c⟩) := by
  refine ⟨ofJson_eq_ok_iff_settles, ?_⟩
  intro text' ms ms' h h' hvalues
  rw [ofJson_eq_ok_iff_of_isObject h, ofJson_eq_ok_iff_of_isObject h', hvalues]

/-- A capacity within another member does not count, and one under an escaped name does. -/
theorem ofJson_eq_ok_seven :
    ∃ ms ms', IsObject "\x7b\"x\":\x7b\"capacity\":1\x7d,\"\\u0063apacity\":7\x7d".toList ms ∧
      IsObject " \x7b \"capacity\" : 7\x7d\n".toList ms' ∧
      capacityValues (ms.map Member.entry) = capacityValues (ms'.map Member.entry) ∧
      ofJson "\x7b\"x\":\x7b\"capacity\":1\x7d,\"\\u0063apacity\":7\x7d" = .ok ⟨7⟩ ∧
      ofJson " \x7b \"capacity\" : 7\x7d\n" = .ok ⟨7⟩ := by
  have hname : NamesCapacity "capacity".toList := by decide +kernel
  have hescaped : NamesCapacity "\\u0063apacity".toList := by decide +kernel
  have hx : Denotes ['x'] ['x'] := .plain ⟨by decide, by decide, by decide⟩ .nil
  have hone : SpellsInteger ['1'] 1 := ⟨.digits rfl (by decide) (List.forall_mem_nil _), rfl⟩
  have hseven : SpellsInteger ['7'] 7 := ⟨.digits rfl (by decide) (List.forall_mem_nil _), rfl⟩
  have hinner : WellFormed (objectText [] [⟨[], "capacity".toList, [], [], ['1'], []⟩]) := by
    refine .object (by decide) ?_ ?_ ?_
    · exact List.forall_mem_singleton.2 ⟨by decide, by decide, by decide, by decide⟩
    · exact List.forall_mem_singleton.2 (Denotes.spells hname)
    · exact List.forall_mem_singleton.2 hone.wellFormed
  have hobject : IsObject "\x7b\"x\":\x7b\"capacity\":1\x7d,\"\\u0063apacity\":7\x7d".toList
      [⟨[], ['x'], [], [], objectText [] [⟨[], "capacity".toList, [], [], ['1'], []⟩], []⟩,
        ⟨[], "\\u0063apacity".toList, [], [], ['7'], []⟩] := by
    refine .intro (show Blank [] by decide) (show Blank [] by decide) ?_ (show Blank [] by decide)
      (by decide)
    refine List.forall_mem_cons.2 ⟨⟨?_, ⟨_, hx⟩, hinner⟩, List.forall_mem_singleton.2
      ⟨?_, ⟨_, hescaped⟩, ?_⟩⟩
    · exact ⟨by decide, by decide, by decide, by decide⟩
    · exact ⟨by decide, by decide, by decide, by decide⟩
    · exact hseven.wellFormed
  have hspaced : IsObject " \x7b \"capacity\" : 7\x7d\n".toList
      [⟨[' '], "capacity".toList, [' '], [' '], ['7'], []⟩] := by
    refine .intro (show Blank [' '] by decide) (show Blank [] by decide) ?_ (show Blank ['\n'] by decide)
      (by decide)
    refine List.forall_mem_singleton.2 ⟨?_, ⟨_, hname⟩, hseven.wellFormed⟩
    exact ⟨by decide, by decide, by decide, by decide⟩
  have hsettles : Settles (capacityValues [("capacity".toList, ['7'])]) 7 := by
    rw [capacityValues_of_names hname]
    exact .given hseven
  have h := ofJson_eq_ok_iff " \x7b \"capacity\" : 7\x7d\n" 7
  have hread := h.1.2 (.inl ⟨_, hspaced, hsettles⟩)
  refine ⟨_, _, hobject, hspaced, ?_, (h.2 _ _ _ hspaced hobject ?_).1 hread, hread⟩
  · decide +kernel
  · decide +kernel

end SlotChain.ListConfig

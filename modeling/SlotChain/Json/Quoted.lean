import SlotChain.Json.Basic

/-!
# JSON strings

A string stands between quotation marks. A backslash starts an escape: one of eight named characters,
or a code unit of four hexadecimal digits. A string that is read for its text must be a text: two code
units that form a surrogate pair stand for one character, and a surrogate by itself is a flaw. A string
that is only skipped may hold any code units.
-/

namespace SlotChain.Json

/-- The value of a hexadecimal digit. -/
def hexValue? (c : Char) : Option Nat :=
  if c.isDigit then some (c.toNat - 48)
  else if 'a' ≤ c ∧ c ≤ 'f' then some (c.toNat - 87)
  else if 'A' ≤ c ∧ c ≤ 'F' then some (c.toNat - 55)
  else none

/-- Read a code unit of four hexadecimal digits. A text ends too early here if it has fewer than four
bytes left. -/
def readUnit : List Char → Except Flaw (Nat × List Char)
  | a :: b :: c :: d :: rest =>
    match hexValue? a, hexValue? b, hexValue? c, hexValue? d with
    | some a, some b, some c, some d => .ok (((a * 16 + b) * 16 + c) * 16 + d, rest)
    | _, _, _, _ => .error .malformed
  | few => .error (if few.foldl (fun n c => n + c.utf8Size) 0 < 4 then .ended else .malformed)

/-- The character of an escape of one letter. -/
def namedEscape? : Char → Option Char
  | '"' => some '"'
  | '\\' => some '\\'
  | '/' => some '/'
  | 'b' => some '\x08'
  | 'f' => some '\x0c'
  | 'n' => some '\n'
  | 'r' => some '\r'
  | 't' => some '\t'
  | _ => none

/-- Whether a code unit is the first half of a surrogate pair. -/
def isLeadingSurrogate (n : Nat) : Bool := 0xd800 ≤ n && n ≤ 0xdbff

/-- Whether a code unit is the second half of a surrogate pair. -/
def isTrailingSurrogate (n : Nat) : Bool := 0xdc00 ≤ n && n ≤ 0xdfff

/-- Read the escape of the second half of a surrogate pair. -/
def readTrailing (lead : Nat) : List Char → Except Flaw (Char × List Char)
  | [] => .error .ended
  | ['\\'] => .error .ended
  | '\\' :: 'u' :: cs =>
    match readUnit cs with
    | .error flaw => .error flaw
    | .ok (trail, rest) =>
      if isTrailingSurrogate trail then
        .ok (Char.ofNat (0x10000 + (lead - 0xd800) * 1024 + (trail - 0xdc00)), rest)
      else .error .malformed
  | _ => .error .malformed

/-- Read an escape, behind its backslash, for its character. -/
def readEscape : List Char → Except Flaw (Char × List Char)
  | [] => .error .ended
  | 'u' :: cs =>
    match readUnit cs with
    | .error flaw => .error flaw
    | .ok (n, rest) =>
      if isTrailingSurrogate n then .error .malformed
      else if isLeadingSurrogate n then readTrailing n rest
      else .ok (Char.ofNat n, rest)
  | c :: cs =>
    match namedEscape? c with
    | some e => .ok (e, cs)
    | none => .error .malformed

/-- Skip an escape, behind its backslash. -/
def skipEscape : List Char → Except Flaw (List Char)
  | [] => .error .ended
  | 'u' :: cs =>
    match readUnit cs with
    | .error flaw => .error flaw
    | .ok (_, rest) => .ok rest
  | c :: cs => if (namedEscape? c).isSome then .ok cs else .error .malformed

theorem length_of_readUnit {cs rest : List Char} {n : Nat} (h : readUnit cs = .ok (n, rest)) :
    rest.length < cs.length := by
  unfold readUnit at h
  split at h
  · split at h
    · cases h
      simp only [List.length_cons]
      omega
    · cases h
  · cases h

theorem length_of_readTrailing {lead : Nat} {cs rest : List Char} {c : Char}
    (h : readTrailing lead cs = .ok (c, rest)) : rest.length < cs.length := by
  unfold readTrailing at h
  split at h
  · cases h
  · cases h
  · split at h
    · cases h
    · rename_i hu
      split at h
      · simp only [Except.ok.injEq, Prod.mk.injEq] at h
        obtain ⟨-, rfl⟩ := h
        have := length_of_readUnit hu
        simp only [List.length_cons]
        omega
      · cases h
  · cases h

/-- An escape takes at least one character. -/
theorem length_of_readEscape {cs rest : List Char} {c : Char}
    (h : readEscape cs = .ok (c, rest)) : rest.length < cs.length := by
  unfold readEscape at h
  split at h
  · cases h
  · split at h
    · cases h
    · rename_i hu
      have := length_of_readUnit hu
      split at h
      · cases h
      · split at h
        · have := length_of_readTrailing h
          simp only [List.length_cons]
          omega
        · simp only [Except.ok.injEq, Prod.mk.injEq] at h
          obtain ⟨-, rfl⟩ := h
          simp only [List.length_cons]
          omega
  · split at h
    · cases h
      simp
    · cases h

/-- An escape that is skipped takes at least one character. -/
theorem length_of_skipEscape {cs rest : List Char} (h : skipEscape cs = .ok rest) :
    rest.length < cs.length := by
  unfold skipEscape at h
  split at h
  · cases h
  · split at h
    · cases h
    · rename_i hu
      cases h
      have := length_of_readUnit hu
      simp only [List.length_cons]
      omega
  · split at h
    · cases h
      simp
    · cases h

/-- Read a string, behind its opening quotation mark, for its text. -/
def readString (cs : List Char) : Except Flaw (List Char × List Char) :=
  match cs with
  | [] => .error .ended
  | '"' :: rest => .ok ([], rest)
  | '\\' :: rest =>
    match h : readEscape rest with
    | .error flaw => .error flaw
    | .ok (c, rest) =>
      have := length_of_readEscape h
      (readString rest).map fun (text, rest) => (c :: text, rest)
  | c :: rest =>
    if c.toNat < 0x20 then .error .malformed
    else (readString rest).map fun (text, rest) => (c :: text, rest)
termination_by cs.length
decreasing_by
  · simp only [List.length_cons]
    omega
  · simp

/-- Skip a string, behind its opening quotation mark. -/
def skipString (cs : List Char) : Except Flaw (List Char) :=
  match cs with
  | [] => .error .ended
  | '"' :: rest => .ok rest
  | '\\' :: rest =>
    match h : skipEscape rest with
    | .error flaw => .error flaw
    | .ok rest =>
      have := length_of_skipEscape h
      skipString rest
  | c :: rest => if c.toNat < 0x20 then .error .malformed else skipString rest
termination_by cs.length
decreasing_by
  · simp only [List.length_cons]
    omega
  · simp

end SlotChain.Json

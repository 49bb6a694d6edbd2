import SlotChain.Fault

/-!
# Tokens

A token stands for an arena slot inside the links of a chain. Tokens count from one, so that the zero
word is left over to mean "no link", and they are machine words. The only key without a token is
therefore the largest word.
-/

namespace SlotChain

/-- The name of an arena slot, as a link stores it. -/
structure Token where
  /-- The slot's key, plus one. -/
  number : Nat
  /-- Zero is no token: it marks an absent link. -/
  number_pos : 0 < number
  /-- A token fits into a machine word. -/
  number_lt : number < wordLimit
deriving DecidableEq

namespace Token

/-- The token of a slot key; the largest word has none. -/
def ofKey (key : Nat) : Except Fault Token :=
  if h : key + 1 < wordLimit then .ok ⟨key + 1, Nat.succ_pos key, h⟩ else .error (.noToken key)

/-- The slot key that a token stands for. -/
def key (t : Token) : Nat := t.number - 1

/-- The inspection text of a token. -/
def inspect (t : Token) : String := "NodeToken(" ++ Text.natural t.number ++ ")"

theorem ofKey_of_lt {key : Nat} (h : key + 1 < wordLimit) :
    ofKey key = .ok ⟨key + 1, Nat.succ_pos key, h⟩ := by
  simp [ofKey, h]

/-- A token leads back to the key it was made from. -/
theorem key_of_ofKey {k : Nat} {t : Token} (h : ofKey k = .ok t) : t.key = k := by
  unfold ofKey at h
  split at h
  · cases h
    simp [key]
  · cases h

/-- Every key below the largest word has a token. -/
theorem exists_ofKey {k : Nat} (h : k + 1 < wordLimit) : ∃ t, ofKey k = .ok t ∧ t.key = k :=
  ⟨_, ofKey_of_lt h, key_of_ofKey (ofKey_of_lt h)⟩

/-- Different tokens stand for different slots. -/
theorem key_injective {s t : Token} (h : s.key = t.key) : s = t := by
  cases s with | mk m hm _ =>
  cases t with | mk n hn _ =>
  simp only [key] at h
  congr
  omega

/-- The number of a token is one more than its key. -/
theorem key_succ (t : Token) : t.key + 1 = t.number := Nat.sub_add_cancel t.number_pos

/-- The key that a token stands for has that token. -/
theorem ofKey_key (t : Token) : ofKey t.key = .ok t := by
  obtain ⟨s, hs, hkey⟩ := exists_ofKey (t.key_succ ▸ t.number_lt)
  rwa [key_injective hkey] at hs

end Token

end SlotChain

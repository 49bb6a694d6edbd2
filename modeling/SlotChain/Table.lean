/-!
# Tables

A table maps keys to entries. It has at most one entry under each key; entering a key again replaces
what stood there.
-/

namespace SlotChain

/-- A finite map, kept as the list of its entries. -/
structure Table (κ β : Type) where
  /-- The keys with their entries, in the order in which the keys came in. -/
  entries : List (κ × β)

namespace Table

variable {κ β : Type} [DecidableEq κ]

/-- The table without entries. -/
def empty : Table κ β := ⟨[]⟩

/-- The entry under a key. -/
def find? (t : Table κ β) (k : κ) : Option β :=
  (t.entries.find? fun e => e.1 = k).map Prod.snd

/-- The table without the entry under a key. -/
def erase (t : Table κ β) (k : κ) : Table κ β :=
  ⟨t.entries.filter fun e => e.1 ≠ k⟩

/-- Enter something under a key, in place of what stood there. -/
def put (t : Table κ β) (k : κ) (b : β) : Table κ β :=
  ⟨(t.erase k).entries ++ [(k, b)]⟩

/-- Erasing a key hides it and nothing else. -/
theorem find?_erase (t : Table κ β) (j k : κ) :
    (t.erase j).find? k = if k = j then none else t.find? k := by
  simp only [find?, erase, List.find?_filter]
  split <;> rename_i h
  · subst h
    simp
  · congr 2
    funext e
    by_cases hk : e.1 = k
    · subst hk
      simp [h]
    · simp [hk]

/-- What was entered under a key is found under it, and every other key keeps its entry. -/
theorem find?_put (t : Table κ β) (j k : κ) (b : β) :
    (t.put j b).find? k = if k = j then some b else t.find? k := by
  have he := find?_erase t j k
  simp only [find?] at he
  by_cases h : k = j
  · subst h
    rw [if_pos rfl, Option.map_eq_none_iff] at he
    simp [find?, put, he]
  · rw [if_neg h] at he
    simp [find?, put, he, h, Ne.symm h]

end Table

end SlotChain

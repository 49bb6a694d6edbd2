import SlotChain.Word

/-!
# Slot maps

A slot map is a finite map that chooses the keys of its entries itself. What is collected here is all
that a chain relies on. Nothing is said of which vacant key an insertion chooses, so that a key may come
back any time after its entry was removed; and nothing is said of entries beyond the room of a map.
-/

namespace SlotChain

/-- A kind of finite maps that choose the keys of their entries, which are natural numbers. -/
class SlotMap (A : Type → Type) where
  /-- The number of entries for which there is room. -/
  room : Nat
  /-- The map without entries. -/
  empty {α : Type} : A α
  /-- The entry under a key, if there is one. -/
  get? {α : Type} (a : A α) (k : Nat) : Option α
  /-- The keys that have an entry. -/
  keys {α : Type} (a : A α) : List Nat
  /-- The number of entries. -/
  size {α : Type} (a : A α) : Nat
  /-- Store an entry and tell its key, or refuse it for want of room. -/
  insert {α : Type} (a : A α) (x : α) : Option (Nat × A α)
  /-- Remove the entry under a key. -/
  erase {α : Type} (a : A α) (k : Nat) : A α
  /-- Change the entry under a key in place. -/
  modify {α : Type} (a : A α) (k : Nat) (f : α → α) : A α
  /-- Remove every entry. -/
  clear {α : Type} (a : A α) : A α
  /-- The empty map has no entry under any key. -/
  get?_empty {α : Type} (k : Nat) : get? (empty : A α) k = none
  /-- The keys list exactly the entries. -/
  mem_keys {α : Type} (a : A α) (k : Nat) : k ∈ keys a ↔ (get? a k).isSome
  /-- No key is listed twice. -/
  nodup_keys {α : Type} (a : A α) : (keys a).Nodup
  /-- The size counts the keys. -/
  size_eq {α : Type} (a : A α) : size a = (keys a).length
  /-- An entry is refused only if the room is used up. -/
  insert_isSome {α : Type} (a : A α) (x : α) (h : size a < room) : (insert a x).isSome
  /-- An insertion chooses a key that has no entry. -/
  get?_of_insert {α : Type} {a b : A α} {x : α} {k : Nat} (h : insert a x = some (k, b)) :
    get? a k = none
  /-- The largest word is never chosen as a key. -/
  key_lt_of_insert {α : Type} {a b : A α} {x : α} {k : Nat} (h : insert a x = some (k, b)) :
    k + 1 < wordLimit
  /-- An insertion adds the entry under its key, and every other key is untouched. -/
  get?_insert {α : Type} {a b : A α} {x : α} {k : Nat} (h : insert a x = some (k, b)) (j : Nat) :
    get? b j = if j = k then some x else get? a j
  /-- Erasing removes exactly the entry under the named key. -/
  get?_erase {α : Type} (a : A α) (k j : Nat) :
    get? (erase a k) j = if j = k then none else get? a j
  /-- Modifying changes only the entry under the named key. -/
  get?_modify {α : Type} (a : A α) (k : Nat) (f : α → α) (j : Nat) :
    get? (modify a k f) j = if j = k then (get? a j).map f else get? a j
  /-- A cleared map has no entry under any key. -/
  get?_clear {α : Type} (a : A α) (k : Nat) : get? (clear a) k = none

end SlotChain

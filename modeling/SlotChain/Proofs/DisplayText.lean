import SlotChain.Proofs.Integers
import SlotChain.Proofs.Reachable

/-!
# Display texts tell chains apart

A display text shows its items as they are, with nothing written around them but the separators, and each
separator ends with the sign of an arrow. As long as no item holds that sign, it ends a separator wherever
it stands, so the text falls into its items again, whatever else they hold: white space, dashes, the marker
of an absent link, or nothing at all. Whole numbers never hold the sign. Items that do may be displayed
like others, even if none of them holds a whole separator.
-/

namespace SlotChain

namespace Display

/-- What stands in front of the first item, up to its white space. -/
def opening : List Char := ['N', 'U', 'L', 'L', ' ', '<', '-']

/-- What stands behind the sign of the last arrow. -/
def closing : List Char := [' ', 'N', 'U', 'L', 'L']

/-- What one item adds between the signs of two arrows. -/
def segment (text : List Char) : List Char := ' ' :: (text ++ [' ', '-'])

/-- Read the texts of the items from a display text. -/
def readTexts (text : List Char) : List (List Char) :=
  ((text.drop opening.length).splitOn '>').dropLast.map fun part => part.tail.dropLast.dropLast

/-- Read the items from a display text, when each can be read from its own. -/
def readItems {α : Type} (read : List Char → α) (text : String) : List α :=
  (readTexts text.toList).map read

/-- The white space behind an arrow may as well be counted to the item that follows. -/
theorem flatMap_segment (xs : List String) :
    ' ' :: (xs.flatMap (fun x => x.toList ++ " -> ".toList) ++ null.toList) =
      xs.flatMap (fun x => segment x.toList ++ ['>']) ++ closing := by
  induction xs with
  | nil => rfl
  | cons x rest ih =>
    have harrow : " -> ".toList = [' ', '-', '>', ' '] := rfl
    simp only [List.flatMap_cons, segment, harrow, List.append_assoc, List.cons_append,
      List.nil_append] at ih ⊢
    rw [ih]

/-- The display text of some items. -/
theorem toList_render_cons (x : String) (xs : List String) :
    (render (x :: xs)).toList =
      opening ++ ((x :: xs).flatMap (fun y => segment y.toList ++ ['>']) ++ closing) := by
  rw [← flatMap_segment, render, String.toList_join, pieces, List.flatMap_append, List.flatMap_cons,
    List.flatMap_cons, List.flatMap_assoc]
  simp only [List.flatMap_cons, List.flatMap_nil, List.append_nil]
  rfl

/-- A text is cut at the sign of every arrow, if it has no other. -/
theorem splitOn_segments {xs : List String} (h : ∀ x ∈ xs, '>' ∉ x.toList) :
    (xs.flatMap (fun x => segment x.toList ++ ['>']) ++ closing).splitOn '>' =
      xs.map (fun x => segment x.toList) ++ [closing] := by
  induction xs with
  | nil => rfl
  | cons x rest ih =>
    obtain ⟨hx, hrest⟩ := List.forall_mem_cons.1 h
    have hsegment : '>' ∉ segment x.toList := by
      rw [segment, List.mem_cons, List.mem_append, not_or, not_or]
      exact ⟨by decide, hx, by decide⟩
    rw [List.flatMap_cons, List.append_assoc, List.append_assoc, List.singleton_append,
      List.splitOn_append_cons_self_of_not_mem hsegment, ih hrest]
    rfl

/-- The text of an item is read from what it adds. -/
theorem readSegment_segment (text : List Char) : (segment text).tail.dropLast.dropLast = text := by
  have hcut : text ++ [' ', '-'] = (text ++ [' ']) ++ ['-'] := by
    rw [List.append_assoc]
    rfl
  rw [segment, List.tail_cons, hcut, List.dropLast_concat, List.dropLast_concat]

/-- The texts of the items are read from their display text, if none of them holds the sign of an
arrow. -/
theorem readTexts_render {xs : List String} (h : ∀ x ∈ xs, '>' ∉ x.toList) :
    readTexts (render xs).toList = xs.map String.toList := by
  cases xs with
  | nil => rfl
  | cons x rest =>
    rw [readTexts, toList_render_cons, List.drop_left, splitOn_segments h, List.dropLast_concat,
      List.map_map]
    exact List.map_congr_left fun y _ => readSegment_segment y.toList

/-- The marker of an absent link is displayed alone exactly if there are no items. -/
theorem render_eq_null_iff (xs : List String) : render xs = null ↔ xs = [] := by
  cases xs with
  | nil => exact ⟨fun _ => rfl, fun _ => rfl⟩
  | cons x rest =>
    refine ⟨fun h => ?_, fun h => absurd h (List.cons_ne_nil _ _)⟩
    have hlength := congrArg (fun s : String => s.toList.length) h
    simp only [toList_render_cons, List.length_append] at hlength
    have hopening : opening.length = 7 := rfl
    have hnull : null.toList.length = 4 := rfl
    omega

/-- Two lists of texts are displayed alike, although no text holds a separator. -/
example : render ["a ->", "b"] = render ["a", "-> b"] := by decide +kernel

end Display

namespace Chain

variable {α : Type} {A : Type → Type} [SlotMap A] [Item α]

/-- What the display text of a chain tells of its items, some of which are legible. -/
structure DisplayTells (c : Chain α A) (read : List Char → α) (legible : α → Prop) (xs : List α)
    (text : String) : Prop where
  /-- These are the items. -/
  items : c.items = .ok xs
  /-- This is the display text. -/
  display : c.display = .ok text
  /-- It is the marker of an absent link exactly if there are no items. -/
  null_iff : text = Display.null ↔ xs = []
  /-- Legible items are read from it, in order. -/
  read : (∀ x ∈ xs, legible x) → Display.readItems read text = xs
  /-- Whatever chain of legible items is displayed alike has the same items. -/
  apart : ∀ (d : Chain α A) (ys : List α), d.Reachable → d.items = .ok ys → d.display = .ok text →
    (∀ x ∈ xs, legible x) → (∀ y ∈ ys, legible y) → ys = xs

/-- Items can be read from a display text if each can be read from its own text, and that does not hold
the sign of an arrow. -/
theorem readItems_render {read : List Char → α} {xs : List α}
    (h : ∀ x ∈ xs, '>' ∉ (Item.text x).toList ∧ read (Item.text x).toList = x) :
    Display.readItems read (Display.render (xs.map Item.text)) = xs := by
  have hsign : ∀ text ∈ xs.map Item.text, '>' ∉ text.toList := by
    rw [List.forall_mem_map]
    exact fun x hx => (h x hx).1
  rw [Display.readItems, Display.readTexts_render hsign, List.map_map, List.map_map]
  exact (List.map_congr_left fun x hx => (h x hx).2).trans (List.map_id xs)

/-- The display text of a chain is that of the texts of its items. -/
theorem Holds.display_eq {c : Chain α A} {xs : List α} (h : c.Holds xs) :
    c.display = .ok (Display.render (xs.map Item.text)) := by
  rw [display, h.items_eq]
  rfl

/-- A chain that holds some items tells of them by its display text. -/
theorem Holds.displayTells {c : Chain α A} {read : List Char → α} {legible : α → Prop} {xs : List α}
    (h : c.Holds xs)
    (hlegible : ∀ x, legible x → '>' ∉ (Item.text x).toList ∧ read (Item.text x).toList = x) :
    c.DisplayTells read legible xs (Display.render (xs.map Item.text)) where
  items := h.items_eq
  display := h.display_eq
  null_iff := by rw [Display.render_eq_null_iff, List.map_eq_nil_iff]
  read hxs := readItems_render fun x hx => hlegible x (hxs x hx)
  apart := by
    intro d ys hd hitems htext hxs hys
    have hrender := Except.ok.inj ((hd.holds_of_items hitems).display_eq.symm.trans htext)
    have hread := readItems_render fun y hy => hlegible y (hys y hy)
    rw [hrender, readItems_render fun x hx => hlegible x (hxs x hx)] at hread
    exact hread.symm

/-- The display text of every reachable chain tells of its items: of texts that do not hold the sign of
an arrow, and of all whole numbers. -/
theorem Reachable.display_tells :
    (∀ c : Chain String A, c.Reachable →
      ∃ xs text, c.DisplayTells String.ofList (fun x => '>' ∉ x.toList) xs text) ∧
    ∀ c : Chain Int A, c.Reachable →
      ∃ xs text, c.DisplayTells Text.readInteger (fun _ => True) xs text := by
  constructor
  · intro c hc
    obtain ⟨xs, hxs⟩ := hc.holds
    exact ⟨xs, _, hxs.displayTells fun x hx => ⟨hx, String.ofList_toList⟩⟩
  · intro c hc
    obtain ⟨xs, hxs⟩ := hc.holds
    refine ⟨xs, _, hxs.displayTells fun n _ => ⟨fun hmem => ?_, Text.readInteger_integer n⟩⟩
    rcases Text.isDigit_of_mem_integer hmem with hsign | hdigit
    · exact absurd hsign (by decide)
    · exact absurd hdigit (by decide)

/-- Items that look like parts of the text around them, one of them empty, and two numbers. -/
theorem Reachable.display_tells_lookalikes :
    (∃ c : Chain String,
      ListStep.performAll [.append "a -", .append "NULL", .append "", .append "<-"] .empty =
        (c, .ok [.done, .done, .done, .done]) ∧
      c.Reachable ∧
      c.display = .ok "NULL <- a - -> NULL ->  -> <- -> NULL" ∧
      Display.readItems String.ofList "NULL <- a - -> NULL ->  -> <- -> NULL" =
        ["a -", "NULL", "", "<-"]) ∧
    ∃ c : Chain Int, ListStep.performAll [.append 0, .prepend (-12)] .empty = (c, .ok [.done, .done]) ∧
      c.Reachable ∧ c.display = .ok "NULL <- -12 -> 0 -> NULL" ∧
      Display.readItems Text.readInteger "NULL <- -12 -> 0 -> NULL" = [-12, 0] := by
  constructor
  · obtain ⟨c, hrun, hreach, hc⟩ := of_steps (A := Arena)
      [.append "a -", .append "NULL", .append "", .append "<-"] (by decide)
    obtain ⟨xs, text, htells⟩ := (display_tells (A := Arena)).1 c hreach
    have hxs : xs = ["a -", "NULL", "", "<-"] := hc.eq_of_items htells.items
    subst hxs
    have htext : text = "NULL <- a - -> NULL ->  -> <- -> NULL" :=
      (Except.ok.inj (htells.display.symm.trans hc.display_eq)).trans (by decide +kernel)
    subst htext
    exact ⟨c, hrun, hreach, htells.display, htells.read (by decide)⟩
  · obtain ⟨c, hrun, hreach, hc⟩ := of_steps (A := Arena) [.append 0, .prepend (-12 : Int)] (by decide)
    obtain ⟨xs, text, htells⟩ := (display_tells (A := Arena)).2 c hreach
    have hxs : xs = [-12, 0] := hc.eq_of_items htells.items
    subst hxs
    have htext : text = "NULL <- -12 -> 0 -> NULL" :=
      (Except.ok.inj (htells.display.symm.trans hc.display_eq)).trans (by decide +kernel)
    subst htext
    exact ⟨c, hrun, hreach, htells.display, htells.read fun _ _ => trivial⟩

end Chain

end SlotChain

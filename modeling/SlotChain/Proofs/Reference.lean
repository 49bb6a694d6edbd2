import SlotChain.Op.Run
import SlotChain.Proofs.Building
import SlotChain.Proofs.Draining
import SlotChain.Proofs.Writing

/-!
# Operations on a plain sequence

What operations do and print is told by a reference on plain sequences of texts: the sequence after an
operation, and the one line that it prints, if it prints any. A run on a chain keeps to the reference in
its answers, its events, its items and its output, as long as there is room for the items.
-/

namespace SlotChain

variable {A : Type → Type} [SlotMap A]

/-- A plain sequence of texts and an output. -/
structure PlainState where
  /-- The texts. -/
  items : List String
  /-- The output. -/
  output : Sink

/-- The list holds the items of a plain sequence, and the output is the same. -/
def RunState.StandsFor (s : RunState A) (p : PlainState) : Prop :=
  s.list.Holds p.items ∧ s.output = p.output

namespace Op

/-- The sequence after an operation. -/
def after (xs : List String) : Op → List String
  | prepend value => value :: xs
  | append value => xs ++ [value]
  | deleteHead => xs.tail
  | deleteTail => xs.dropLast
  | len => xs
  | print => xs

/-- The sequence after operations. -/
def afterAll (xs : List String) (ops : List Op) : List String := ops.foldl after xs

/-- How a deletion shows the item that it removed: in quotation marks, or as the mark that there was
none. -/
def removedText : Option String → String
  | some value => Text.quoted value
  | none => emptyMark

/-- What an operation on a sequence shows, if it shows anything. -/
def result? (xs : List String) : Op → Option String
  | prepend _ => none
  | append _ => none
  | deleteHead => some (removedText xs.head?)
  | deleteTail => some (removedText xs.getLast?)
  | len => some (Text.natural xs.length)
  | print => some (Display.render xs)

/-- The line of an operation with its end, which is empty if the operation shows nothing. -/
def line (xs : List String) (op : Op) : String :=
  match op.result? xs with
  | some text => text ++ "\n"
  | none => ""

/-- The whole output of operations one after the other. -/
def outputAll : List String → List Op → String
  | _, [] => ""
  | xs, op :: rest => op.line xs ++ outputAll (op.after xs) rest

/-- The changes that an operation makes to a sequence, as events. -/
def changes (xs : List String) : Op → List Event
  | prepend _ => [.mutated .prepend (xs.length + 1)]
  | append _ => [.mutated .append (xs.length + 1)]
  | deleteHead => Chain.deletionEvents .deleteHead xs.length
  | deleteTail => Chain.deletionEvents .deleteTail xs.length
  | len => []
  | print => []

/-- How many items an operation asks an arena to hold. -/
def demand (xs : List String) : Op → Nat
  | prepend _ => xs.length + 1
  | append _ => xs.length + 1
  | _ => 0

/-- How many items operations one after the other ask an arena to hold at once. -/
def demandAll : List String → List Op → Nat
  | _, [] => 0
  | xs, op :: rest => max (op.demand xs) (demandAll (op.after xs) rest)

/-- What an operation does to a plain sequence and an output. The sequence changes first, and stays
changed if the line cannot be written. -/
def plain (op : Op) (p : PlainState) : Outcome PlainState (Except CommandError Unit) :=
  let (output, result) := p.output.write (op.line p.items)
  { answer := result.mapError .io
    state := ⟨op.after p.items, output⟩
    events := .applying op.text p.items.length :: op.changes p.items }

/-- What a run does to a plain sequence and an output. -/
def plainRun : List Op → PlainState → Outcome PlainState (Except CommandError Unit)
  | [], p => ⟨.ok (), p, []⟩
  | op :: rest, p =>
    let first := op.plain p
    match first.answer with
    | .ok () =>
      let others := plainRun rest first.state
      { others with events := first.events ++ others.events }
    | .error e => ⟨.error e, first.state, first.events⟩

end Op

namespace RunState

variable {s : RunState A} {p : PlainState} {fits : Prop} {β : Type} {x : Act (Chain String A) β}
  {b : β} {ys : List String} {es : List Event}

/-- Acting on the list alone leaves the output as it is. -/
theorem StandsFor.onList (h : s.StandsFor p)
    (hact : Matches fits Chain.Holds (x s.list) ⟨b, ys, es⟩) :
    Matches fits StandsFor (onList x s) ⟨b, ⟨ys, p.output⟩, es⟩ := by
  generalize hr : x s.list = r at hact
  rw [RunState.onList, hr]
  cases hact with
  | done hlist => exact .done ⟨hlist, h.2⟩
  | refused hfits => exact .refused hfits

/-- Pieces of a line are written like their whole. -/
theorem StandsFor.writeLine (h : s.StandsFor p) (pieces : List String) :
    Matches fits StandsFor (writeLine pieces s)
      ⟨(p.output.write (String.join pieces ++ "\n")).2.mapError .io,
        ⟨p.items, (p.output.write (String.join pieces ++ "\n")).1⟩, []⟩ := by
  have hwhole : String.join (pieces ++ ["\n"]) = String.join pieces ++ "\n" := by
    rw [String.join_append, String.join_cons, String.join_nil, String.append_empty]
  simp only [RunState.writeLine, Sink.writeAll_eq_write, hwhole, h.2]
  exact .done ⟨h.1, rfl⟩

/-- Acting on the list and then writing a line about the answer. -/
theorem StandsFor.show (h : s.StandsFor p) (pieces : β → List String)
    (hact : Matches fits Chain.Holds (x s.list) ⟨b, ys, es⟩) :
    Matches fits StandsFor ((do let b ← RunState.onList x; RunState.writeLine (pieces b)) s)
      ⟨(p.output.write (String.join (pieces b) ++ "\n")).2.mapError .io,
        ⟨ys, (p.output.write (String.join (pieces b) ++ "\n")).1⟩, es⟩ := by
  have hboth := (h.onList hact).bind (f := fun b => RunState.writeLine (pieces b))
    fun s' hs' => hs'.writeLine (pieces b)
  rwa [List.append_nil] at hboth

end RunState

namespace Op

variable {s : RunState A} {p : PlainState}

theorem join_removedPieces (removed : Option String) :
    String.join (removedPieces removed) = removedText removed := by
  cases removed with
  | none => rfl
  | some value => rfl

theorem join_pieces (xs : List String) :
    String.join (Display.pieces (xs.map Item.text)) = Display.render xs := by
  have htext : xs.map Item.text = xs := List.map_id xs
  rw [htext, Display.render]

/-- Asking about a chain changes nothing. -/
theorem inspect_matches {c : Chain String A} {xs : List String} {β : Type}
    {f : Chain String A → Except Fault β} {b : β} (h : c.Holds xs) (hf : f c = .ok b) :
    Matches True Chain.Holds (Act.inspect f c) ⟨b, xs, []⟩ := by
  rw [Act.inspect, hf]
  exact .done h

/-- An operation is announced, and then does what it does. -/
theorem apply_of_execute {op : Op} {fits : Prop} {answer : Except CommandError Unit}
    {q : PlainState} {es : List Event} (h : s.StandsFor p)
    (hexecute : Matches fits RunState.StandsFor (op.execute s) ⟨answer, q, es⟩) :
    Matches fits RunState.StandsFor (op.apply s)
      ⟨answer, q, .applying op.text p.items.length :: es⟩ := by
  generalize hr : op.execute s = r at hexecute
  rw [apply, hr, h.1.len_eq]
  cases hexecute with
  | done hq => exact .done hq
  | refused hfits => exact .refused hfits

/-- An operation that only inserts leaves the output as it is. -/
theorem apply_silent {op : Op} {fits : Prop} {x : Act (Chain String A) Unit} (h : s.StandsFor p)
    (hop : op.execute s = (do RunState.onList x; return .ok () : Act (RunState A) _) s)
    (hact : Matches fits Chain.Holds (x s.list) ⟨(), op.after p.items, op.changes p.items⟩)
    (hsilent : op.result? p.items = none) :
    Matches fits RunState.StandsFor (op.apply s) (op.plain p) := by
  have hinsert := (h.onList hact).andAnswer fun _ => (.ok () : Except CommandError Unit)
  rw [← hop] at hinsert
  simp only [plain, line, hsilent, Sink.write_empty]
  exact apply_of_execute h hinsert

/-- An operation that shows something acts on the list first, and then writes its line. -/
theorem apply_shown {op : Op} {fits : Prop} {β : Type} {x : Act (Chain String A) β} {b : β}
    (h : s.StandsFor p) (pieces : β → List String)
    (hop : op.execute s =
      (do let b ← RunState.onList x; RunState.writeLine (pieces b) : Act (RunState A) _) s)
    (hact : Matches True Chain.Holds (x s.list) ⟨b, op.after p.items, op.changes p.items⟩)
    (hshown : op.result? p.items = some (String.join (pieces b))) :
    Matches fits RunState.StandsFor (op.apply s) (op.plain p) := by
  have hfits : Matches fits Chain.Holds (x s.list) ⟨b, op.after p.items, op.changes p.items⟩ :=
    hact.weaken fun _ => trivial
  have hshow := h.show pieces hfits
  rw [← hop] at hshow
  simp only [plain, line, hshown]
  exact apply_of_execute h hshow

/-- A run state takes every operation as the plain sequence and the output do, unless there is no
room. -/
theorem apply_spec (h : s.StandsFor p) (op : Op) :
    Matches (op.demand p.items ≤ SlotMap.room A) RunState.StandsFor (op.apply s) (op.plain p) := by
  cases op with
  | prepend value => exact apply_silent h rfl (h.1.prepend value) rfl
  | append value => exact apply_silent h rfl (h.1.append value) rfl
  | deleteHead =>
    exact apply_shown h removedPieces rfl h.1.deleteHead (by rw [join_removedPieces]; rfl)
  | deleteTail =>
    exact apply_shown h removedPieces rfl h.1.deleteTail (by rw [join_removedPieces]; rfl)
  | len =>
    have hlen : (.ok s.list.len : Except Fault Nat) = .ok p.items.length := by rw [h.1.len_eq]
    refine apply_shown h (fun n => [Text.natural n]) rfl (inspect_matches h.1 hlen) ?_
    rw [String.join_cons, String.join_nil, String.append_empty]
    rfl
  | print =>
    have hpieces : s.list.displayPieces = .ok (Display.pieces (p.items.map Item.text)) := by
      rw [Chain.displayPieces, h.1.items_eq]
      rfl
    refine apply_shown h id rfl (inspect_matches h.1 hpieces) ?_
    rw [id, join_pieces]
    rfl

/-- A run on a run state keeps to the run on the plain sequence and the output, unless there is no
room. -/
theorem run_spec (h : s.StandsFor p) (ops : List Op) :
    Matches (demandAll p.items ops ≤ SlotMap.room A) RunState.StandsFor (run ops s)
      (plainRun ops p) := by
  induction ops generalizing s p with
  | nil => exact .done h
  | cons op rest ih =>
    have hfirst : Matches (demandAll p.items (op :: rest) ≤ SlotMap.room A) RunState.StandsFor
        (op.apply s) (op.plain p) := by
      refine (apply_spec h op).weaken fun hle => ?_
      rw [demandAll] at hle
      omega
    rw [run, plainRun]
    have hstate : (op.plain p).state.items = op.after p.items := rfl
    generalize op.plain p = first at hfirst hstate ⊢
    obtain ⟨e | _, q, es⟩ := first
    · have hboth := hfirst.bind (f := fun
        | .ok () => run rest
        | .error e => return .error e) fun s' hs' => .done hs'
      rwa [List.append_nil] at hboth
    · refine hfirst.bind fun s' hs' => (ih hs').weaken fun hle => ?_
      rw [demandAll] at hle
      rw [hstate]
      omega

end Op

end SlotChain

import SlotChain.Sink
import Mathlib.Data.List.TakeDrop

/-!
# Writing in pieces

An output does not tell pieces that are written one after the other from their whole written at once,
wherever in the pieces it runs full. So a text can be cut for writing in any way, and what an output
holds in the end is the beginning of the text as far as there is room.
-/

namespace SlotChain

@[simp] theorem Text.utf8_empty : Text.utf8 "" = [] := rfl

theorem Text.utf8_append (a b : String) : Text.utf8 (a ++ b) = Text.utf8 a ++ Text.utf8 b := by
  simp only [Text.utf8, String.toList_append, List.flatMap_append]

namespace Sink

/-- A text fits if an output has no limit, or room for all its bytes. -/
def Fits (s : Sink) (text : String) : Prop :=
  ∀ room, s.room = some room → (Text.utf8 text).length ≤ room

/-- An empty text changes nothing, even if there is no room left. -/
theorem write_empty (s : Sink) : s.write "" = (s, .ok ()) := by
  obtain ⟨room, written⟩ := s
  cases room with
  | none => simp only [write, Text.utf8_empty, List.append_nil]
  | some room =>
    simp only [write, Text.utf8_empty, List.length_nil, Nat.zero_le, if_true, Nat.sub_zero,
      List.take_nil, List.append_nil]

/-- A text that fits is written. -/
theorem write_of_fits {s : Sink} {text : String} (h : s.Fits text) : (s.write text).2 = .ok () := by
  obtain ⟨room, written⟩ := s
  cases room with
  | none => rfl
  | some room => exact if_pos (h room rfl)

/-- A text that fits is written whole. -/
theorem written_of_fits {s : Sink} {text : String} (h : s.Fits text) :
    (s.write text).1.written = s.written ++ Text.utf8 text := by
  obtain ⟨room, written⟩ := s
  cases room with
  | none => rfl
  | some room => exact congrArg (written ++ ·) (List.take_of_length_le (h room rfl))

/-- A text that does not fit fills the output. -/
theorem write_of_not_fits {s : Sink} {text : String} (h : ¬s.Fits text) :
    (s.write text).2 = .error .outputFull := by
  obtain ⟨room, written⟩ := s
  cases room with
  | none => exact absurd (fun room hroom => nomatch hroom) h
  | some room =>
    refine if_neg fun hle => h fun r hr => ?_
    cases hr
    exact hle

/-- Writing two texts is writing the second after the first, unless the first fails. -/
theorem write_append (s : Sink) (a b : String) :
    s.write (a ++ b) =
      match s.write a with
      | (s', .ok ()) => s'.write b
      | (s', .error e) => (s', .error e) := by
  obtain ⟨room, written⟩ := s
  cases room with
  | none => simp only [write, Text.utf8_append, List.append_assoc]
  | some room =>
    by_cases h : (Text.utf8 a).length ≤ room
    · have hroom : room - ((Text.utf8 a).length + (Text.utf8 b).length) =
          room - (Text.utf8 a).length - (Text.utf8 b).length := by omega
      have hfits : (Text.utf8 a).length + (Text.utf8 b).length ≤ room ↔
          (Text.utf8 b).length ≤ room - (Text.utf8 a).length := by omega
      simp only [write, Text.utf8_append, List.length_append, if_pos h, List.take_append,
        List.take_of_length_le h, List.append_assoc, hroom, hfits]
    · have hroom : room - ((Text.utf8 a).length + (Text.utf8 b).length) =
          room - (Text.utf8 a).length := by omega
      have hfull : ¬(Text.utf8 a).length + (Text.utf8 b).length ≤ room := by omega
      have hcut : room - (Text.utf8 a).length = 0 := by omega
      simp only [write, Text.utf8_append, List.length_append, if_neg h, if_neg hfull,
        List.take_append, hroom, hcut, List.take_zero, List.append_nil]

/-- Two texts fit if the first does and the second fits behind it. -/
theorem fits_append_iff (s : Sink) (a b : String) :
    s.Fits (a ++ b) ↔ s.Fits a ∧ (s.write a).1.Fits b := by
  obtain ⟨room, written⟩ := s
  cases room with
  | none =>
    have hall : ∀ text, Fits ⟨none, written⟩ text := fun text room h => nomatch h
    exact ⟨fun _ => ⟨hall a, fun room h => nomatch h⟩, fun _ => hall _⟩
  | some room =>
    simp only [Fits, write, Option.some.injEq, forall_eq', Text.utf8_append, List.length_append]
    omega

/-- Writing pieces is writing their whole. -/
theorem writeAll_eq_write (s : Sink) (pieces : List String) :
    s.writeAll pieces = s.write (String.join pieces) := by
  induction pieces generalizing s with
  | nil => exact (write_empty s).symm
  | cons piece rest ih =>
    rw [writeAll, String.join_cons, write_append]
    rcases s.write piece with ⟨s', e | _⟩
    · rfl
    · exact ih s'

/-- What was written before stays. -/
theorem exists_write_written (s : Sink) (text : String) :
    ∃ bytes, (s.write text).1.written = s.written ++ bytes := by
  obtain ⟨room, written⟩ := s
  cases room with
  | none => exact ⟨_, rfl⟩
  | some room => exact ⟨_, rfl⟩

end Sink

end SlotChain

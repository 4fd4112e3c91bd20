import LineShell.Proofs.Text.Lines
import LineShell.Text.Offset

/-
  Pieces of a text between byte offsets. There is a piece
  where both offsets are in the text, the first one before
  the second one, and none of them inside a character.

  Key definitions include:
    * `Text.isOffset`
    * `Text.HasSlice`
    * `Text.slice?`

  Correctness is proven by:
    * `Text.isOffset_iff`
    * `Text.slice?_append`
-/

------------------------------------------------------------
-- Bytes and their number
------------------------------------------------------------

namespace LineShell

theorem Text.byteLength_pos
    {chars : List Char}
    (hSome : chars ≠ []) :
    0 < byteLength chars := by
  cases chars with
  | nil => exact absurd rfl hSome
  | cons c chars =>
      exact Nat.lt_of_lt_of_le c.utf8Size_pos
        (Nat.le_add_right _ _)

theorem Text.byteLength_toList
    (text : String) :
    byteLength text.toList = text.utf8ByteSize := by
  rw [← Utf8.length_bytes, Utf8.bytes_eq_flatMap]
  induction text.toList with
  | nil => rfl
  | cons c chars ih =>
      rw [List.flatMap_cons, List.length_append, ← ih,
        byteLength_cons, String.length_utf8EncodeChar]

end LineShell

------------------------------------------------------------
-- Slices
------------------------------------------------------------

namespace LineShell

namespace Text

/- An offset is in a text and inside none of its characters. -/
def isOffset
    (text : String)
    (offset : Nat) : Bool :=
  (String.Pos.Raw.mk offset).isValid text

/-
  A text has a piece between two byte offsets: they are in
  order, not beyond its end and inside none of its
  characters.
-/
structure HasSlice
    (text : String)
    (start stop : Nat) : Prop where
  in_order : start ≤ stop
  in_text : stop ≤ text.utf8ByteSize
  at_start : isOffset text start = true
  at_stop : isOffset text stop = true

/-
  The piece of a text between two byte offsets, if it can be
  cut at them and they are in order.
-/
def slice?
    (text : String)
    (start stop : Nat) : Option String :=
  if start ≤ stop ∧ isOffset text start ∧
      isOffset text stop then
    Utf8.decode?
      (ByteArray.mk
        (((Utf8.bytes text).drop start).take
          (stop - start)).toArray)
  else
    none

/- An offset parts a text in two. -/
theorem isOffset_iff
    {text : String}
    {offset : Nat} :
    isOffset text offset = true ↔
      ∃ front back,
        text = front ++ back ∧
          front.utf8ByteSize = offset := by
  unfold isOffset
  rw [String.Pos.Raw.isValid_eq_true_iff,
    String.Pos.Raw.isValid_iff_exists_append]
  constructor
  · rintro ⟨front, back, hText, hOffset⟩
    refine ⟨front, back, hText, ?_⟩
    exact (congrArg String.Pos.Raw.byteIdx hOffset).symm
  · rintro ⟨front, back, hText, rfl⟩
    exact ⟨front, back, hText, rfl⟩

theorem isOffset_append
    (front back : String) :
    isOffset (front ++ back) front.utf8ByteSize = true :=
  isOffset_iff.2 ⟨front, back, rfl, rfl⟩

/- No offset is beyond the end. -/
theorem le_of_isOffset
    {text : String}
    {offset : Nat}
    (hOffset : isOffset text offset = true) :
    offset ≤ text.utf8ByteSize := by
  rcases isOffset_iff.1 hOffset with
    ⟨front, back, rfl, rfl⟩
  rw [String.utf8ByteSize_append]
  exact Nat.le_add_right _ _

theorem hasSlice_of_slice?
    {text piece : String}
    {start stop : Nat}
    (hSlice : slice? text start stop = some piece) :
    HasSlice text start stop := by
  unfold slice? at hSlice
  split at hSlice
  case isTrue hRange =>
    rcases hRange with ⟨hOrder, hStart, hStop⟩
    exact ⟨hOrder, le_of_isOffset hStop, hStart, hStop⟩
  case isFalse => cases hSlice

/- Any part of a text is a piece of it. -/
theorem slice?_append
    (front piece back : String) :
    slice? (front ++ piece ++ back) front.utf8ByteSize
        (front.utf8ByteSize + piece.utf8ByteSize) =
      some piece := by
  have hStart :
      isOffset (front ++ piece ++ back)
          front.utf8ByteSize =
        true := by
    rw [String.append_assoc]
    exact isOffset_append front (piece ++ back)
  have hStop :
      isOffset (front ++ piece ++ back)
          (front.utf8ByteSize + piece.utf8ByteSize) =
        true := by
    rw [← String.utf8ByteSize_append]
    exact isOffset_append (front ++ piece) back
  unfold slice?
  rw [if_pos ⟨Nat.le_add_right _ _, hStart, hStop⟩,
    Utf8.bytes_append, Utf8.bytes_append,
    List.append_assoc, ← Utf8.length_bytes, List.drop_left,
    Nat.add_sub_cancel_left, ← Utf8.length_bytes,
    List.take_left, Utf8.decode?_bytes]

/- The piece before an offset. -/
theorem slice?_left
    (front back : String) :
    slice? (front ++ back) 0 front.utf8ByteSize =
      some front := by
  simpa using slice?_append "" front back

/- The piece from an offset on. -/
theorem slice?_right
    (front back : String) :
    slice? (front ++ back) front.utf8ByteSize
        (front ++ back).utf8ByteSize =
      some back := by
  simpa using slice?_append front back ""

end Text

end LineShell

import LineShell.Proofs.Text.Lines

/-
  The order of texts. Texts that are compared character by
  character are in the same order as their bytes.

  Correctness is proven by:
    * `Utf8.encoded_append_lt`
    * `Utf8.bytes_lt_bytes_iff`
-/

------------------------------------------------------------
-- Characters in order
------------------------------------------------------------

namespace LineShell

namespace Utf8

theorem ofNat_lt_ofNat
    {first second : Nat}
    (hLess : first < second)
    (hByte : second < 256) :
    UInt8.ofNat first < UInt8.ofNat second := by
  rw [UInt8.lt_iff_toNat_lt, UInt8.toNat_ofNat',
    UInt8.toNat_ofNat']
  omega

/-
  Bytes are in order if the first ones are, and so they are
  if these are the same and the others are in order.
-/
theorem cons_lt_cons_of_le
    {first second : Nat}
    {left right : List UInt8}
    (hLessEq : first ≤ second)
    (hByte : second < 256)
    (hRest : first = second → left < right) :
    UInt8.ofNat first :: left <
      UInt8.ofNat second :: right := by
  rw [List.cons_lt_cons_iff]
  rcases Nat.lt_or_eq_of_le hLessEq with hLess | hSame
  · exact Or.inl (ofNat_lt_ofNat hLess hByte)
  · exact Or.inr ⟨by rw [hSame], hRest hSame⟩

/-
  The bytes of the lesser one of two characters come first,
  whatever stands behind them.
-/
theorem encoded_append_lt
    {first second : Char}
    (hLess : first < second)
    (left right : List UInt8) :
    String.utf8EncodeChar first ++ left <
      String.utf8EncodeChar second ++ right := by
  have hCode : first.val.toNat < second.val.toNat := hLess
  have hBound : second.val.toNat < 0x110000 := by
    have := second.valid
    rcases this with h | h <;> omega
  -- A longer sequence starts with a greater byte, and in
  -- sequences of one length the first bytes that differ are
  -- those of the first digits that differ.
  unfold String.utf8EncodeChar
  dsimp only
  repeat' split
  all_goals
    simp only [List.cons_append, List.nil_append]
    repeat
      refine cons_lt_cons_of_le (by omega) (by omega)
        fun _ => ?_
    omega

end Utf8

end LineShell

------------------------------------------------------------
-- Texts in order
------------------------------------------------------------

namespace LineShell

namespace Utf8

theorem flatMap_encoded_lt
    {first second : List Char}
    (hLess : first < second) :
    first.flatMap String.utf8EncodeChar <
      second.flatMap String.utf8EncodeChar := by
  induction hLess with
  | @nil c rest =>
      have hSome := String.length_utf8EncodeChar c
      have hPos := c.utf8Size_pos
      rw [List.flatMap_nil, List.flatMap_cons]
      cases hBytes : String.utf8EncodeChar c with
      | nil =>
          rw [hBytes, List.length_nil] at hSome
          omega
      | cons byte bytes => exact List.nil_lt_cons _ _
  | rel hFirst =>
      rw [List.flatMap_cons, List.flatMap_cons]
      exact encoded_append_lt hFirst _ _
  | cons hRest ih =>
      rw [List.flatMap_cons, List.flatMap_cons]
      exact List.append_left_lt ih

/- Texts are in the order of their bytes. -/
theorem bytes_lt_bytes_iff
    {first second : String} :
    bytes first < bytes second ↔ first < second := by
  have hForward :
      ∀ {first second : String},
        first < second → bytes first < bytes second := by
    intro first second hLess
    rw [bytes_eq_flatMap, bytes_eq_flatMap]
    exact flatMap_encoded_lt (String.lt_iff.1 hLess)
  constructor
  · intro hLess
    apply Classical.byContradiction
    intro hNot
    have hGreater : second ≤ first := String.not_lt.1 hNot
    by_cases hSame : first ≤ second
    · obtain rfl := String.le_antisymm hSame hGreater
      exact List.lt_irrefl _ hLess
    · exact List.lt_asymm hLess
        (hForward (String.not_le.1 hSame))
  · exact hForward

end Utf8

end LineShell

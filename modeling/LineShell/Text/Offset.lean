/-
  This module measures texts in bytes of their UTF-8 form
  and cuts them at byte offsets. A cut never divides a
  character: an offset inside one counts as the offset at
  which that character starts.

  Key definitions include:
    * `Text.byteLength`
    * `Text.takeBytes`
    * `Text.dropBytes`

  The lemmas `takeBytes_append` and `dropBytes_append` say
  that a cut at the length of a beginning gives back that
  beginning and the rest.
-/

namespace LineShell

namespace Text

------------------------------------------------------------
-- Lengths
------------------------------------------------------------

/- The number of bytes that a row of characters takes. -/
def byteLength :
    List Char → Nat
  | [] => 0
  | c :: chars => c.utf8Size + byteLength chars

@[simp]
theorem byteLength_nil :
    byteLength [] = 0 :=
  rfl

@[simp]
theorem byteLength_cons
    (c : Char)
    (chars : List Char) :
    byteLength (c :: chars) =
      c.utf8Size + byteLength chars :=
  rfl

@[simp]
theorem byteLength_append
    (left right : List Char) :
    byteLength (left ++ right) =
      byteLength left + byteLength right := by
  induction left with
  | nil => simp
  | cons c left ih =>
    simp only [List.cons_append, byteLength_cons, ih]
    omega

------------------------------------------------------------
-- Cuts
------------------------------------------------------------

/- The characters that lie wholly before a byte offset. -/
def takeBytes :
    Nat → List Char → List Char
  | _, [] => []
  | offset, c :: chars =>
    if c.utf8Size ≤ offset then
      c :: takeBytes (offset - c.utf8Size) chars
    else
      []

/- The characters that remain after `takeBytes`. -/
def dropBytes :
    Nat → List Char → List Char
  | _, [] => []
  | offset, c :: chars =>
    if c.utf8Size ≤ offset then
      dropBytes (offset - c.utf8Size) chars
    else
      c :: chars

theorem takeBytes_append_dropBytes
    (offset : Nat)
    (chars : List Char) :
    takeBytes offset chars ++ dropBytes offset chars =
      chars := by
  induction chars generalizing offset with
  | nil => rfl
  | cons c chars ih =>
    by_cases h : c.utf8Size ≤ offset
    · simp [takeBytes, dropBytes, h, ih]
    · simp [takeBytes, dropBytes, h]

theorem takeBytes_zero
    (chars : List Char) :
    takeBytes 0 chars = [] := by
  cases chars with
  | nil => rfl
  | cons c chars =>
    have h : ¬ c.utf8Size ≤ 0 := by
      have := Char.utf8Size_pos c
      omega
    simp [takeBytes, h]

theorem dropBytes_zero
    (chars : List Char) :
    dropBytes 0 chars = chars := by
  simpa [takeBytes_zero] using
    takeBytes_append_dropBytes 0 chars

theorem takeBytes_append
    (left right : List Char) :
    takeBytes (byteLength left) (left ++ right) =
      left := by
  induction left with
  | nil => simp [takeBytes_zero]
  | cons c left ih => simp [takeBytes, ih]

theorem dropBytes_append
    (left right : List Char) :
    dropBytes (byteLength left) (left ++ right) =
      right := by
  induction left with
  | nil => simp [dropBytes_zero]
  | cons c left ih => simp [dropBytes, ih]

end Text

end LineShell

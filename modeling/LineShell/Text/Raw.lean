import LineShell.Text.Utf8

/-
  This module defines raw texts: the bytes that name the
  entries of a file system and that links lead to. They need
  not be UTF-8, and are shown with replacements where they
  are not.

  Key definitions include:
    * `RawText`
    * `RawText.ofText`
    * `RawText.shown`
-/

namespace LineShell

/- A text as a file system has it. -/
structure RawText where
  bytes : List UInt8
deriving DecidableEq

namespace RawText

/- The raw text with the bytes of a text. -/
def ofText
    (text : String) : RawText :=
  ⟨Utf8.bytes text⟩

instance : Coe String RawText :=
  ⟨ofText⟩

/- What is shown of a raw text. -/
def shown
    (raw : RawText) : String :=
  Utf8.decodeLossy (ByteArray.mk raw.bytes.toArray)

instance : Coe RawText String :=
  ⟨shown⟩

/- A text is shown as it is. -/
@[simp]
theorem shown_ofText
    (text : String) :
    (ofText text).shown = text := by
  rw [shown, ofText, Utf8.bytes, Array.toArray_toList]
  exact Utf8.decodeLossy_toByteArray text

end RawText

end LineShell

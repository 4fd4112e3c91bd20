/-
  This module reads bytes as UTF-8. Where the bytes are no
  UTF-8, each longest piece that could begin a character, or
  a single byte that could not, is shown as the replacement
  character.

  Key definitions include:
    * `Utf8.Pending`
    * `Utf8.step`
    * `Utf8.firstLine`
    * `Utf8.lines`
    * `Utf8.bytes`
    * `Utf8.decode?`
    * `Utf8.decodeLossy`

  The lemma `decodeLossy_toByteArray` says that the bytes of a
  text are read as that text.
-/

namespace LineShell

namespace Utf8

------------------------------------------------------------
-- Sequences
------------------------------------------------------------

/-
  A character of which some bytes have been read: how many
  are missing, between which bounds the next one lies, and
  the bits collected so far.
-/
structure Pending where
  missing : Nat
  low : Nat
  high : Nat
  bits : Nat

/- The character shown for bytes that are none. -/
def replacement : Char := '\ufffd'

/-
  What the first byte of a sequence does: it is a character
  of its own, begins one, or can do neither.
-/
def start
    (byte : Nat) : List Char × Option Pending :=
  if byte ≤ 0x7F then
    ([Char.ofNat byte], none)
  else if 0xC2 ≤ byte ∧ byte ≤ 0xDF then
    ([], some ⟨1, 0x80, 0xBF, byte - 0xC0⟩)
  else if byte = 0xE0 then
    ([], some ⟨2, 0xA0, 0xBF, 0⟩)
  else if byte = 0xED then
    ([], some ⟨2, 0x80, 0x9F, byte - 0xE0⟩)
  else if 0xE1 ≤ byte ∧ byte ≤ 0xEF then
    ([], some ⟨2, 0x80, 0xBF, byte - 0xE0⟩)
  else if byte = 0xF0 then
    ([], some ⟨3, 0x90, 0xBF, 0⟩)
  else if 0xF1 ≤ byte ∧ byte ≤ 0xF3 then
    ([], some ⟨3, 0x80, 0xBF, byte - 0xF0⟩)
  else if byte = 0xF4 then
    ([], some ⟨3, 0x80, 0x8F, byte - 0xF0⟩)
  else
    ([replacement], none)

/-
  What a byte does after a possibly unfinished sequence. A
  byte that cannot go on with it ends it and begins anew.
-/
def step
    (pending : Option Pending)
    (byte : Nat) : List Char × Option Pending :=
  match pending with
  | none => start byte
  | some sequence =>
    if sequence.low ≤ byte ∧ byte ≤ sequence.high then
      let bits := sequence.bits * 0x40 + (byte - 0x80)
      if sequence.missing ≤ 1 then
        ([Char.ofNat bits], none)
      else
        ([], some ⟨sequence.missing - 1, 0x80, 0xBF, bits⟩)
    else
      let (chars, next) := start byte
      (replacement :: chars, next)

------------------------------------------------------------
-- Lines
------------------------------------------------------------

/-
  The bytes up to the first newline, which belongs to them,
  and the bytes after it.
-/
def firstLine :
    List UInt8 → List UInt8 × List UInt8
  | [] => ([], [])
  | byte :: rest =>
    if byte = 10 then
      ([byte], rest)
    else
      let (line, others) := firstLine rest
      (byte :: line, others)

/- The lines of bytes, each with the newline that ends it. -/
def lines :
    List UInt8 → List (List UInt8)
  | [] => []
  | byte :: rest =>
    if byte = 10 then
      [byte] :: lines rest
    else
      match lines rest with
      | [] => [[byte]]
      | line :: others => (byte :: line) :: others

------------------------------------------------------------
-- Texts
------------------------------------------------------------

/- The bytes of a text. -/
def bytes
    (text : String) : List UInt8 :=
  text.toByteArray.data.toList

/- The text of bytes that are UTF-8. -/
def decode?
    (bytes : ByteArray) : Option String :=
  String.fromUTF8? bytes

/-
  The text of any bytes, with replacements for what is no
  UTF-8.
-/
def replaceInvalid
    (bytes : List UInt8) : String :=
  let (text, pending) :=
    bytes.foldl
      (fun (text, pending) byte =>
        let (chars, next) := step pending byte.toNat
        (chars.foldl String.push text, next))
      ("", none)
  match pending with
  | none => text
  | some _ => text.push replacement

/- The text of any bytes. -/
def decodeLossy
    (bytes : ByteArray) : String :=
  (decode? bytes).getD (replaceInvalid bytes.toList)

@[simp]
theorem decode?_toByteArray
    (text : String) :
    decode? text.toByteArray = some text := by
  simp [decode?, String.fromUTF8?, text.isValidUTF8,
    String.fromUTF8]

theorem eq_toByteArray_of_decode?
    {bytes : ByteArray}
    {text : String}
    (hText : decode? bytes = some text) :
    bytes = text.toByteArray := by
  unfold decode? String.fromUTF8? at hText
  split at hText
  case isTrue hValid =>
    rw [Option.some.injEq] at hText
    rw [← hText]
    rfl
  case isFalse => cases hText

@[simp]
theorem decodeLossy_toByteArray
    (text : String) :
    decodeLossy text.toByteArray = text := by
  simp [decodeLossy]

end Utf8

end LineShell

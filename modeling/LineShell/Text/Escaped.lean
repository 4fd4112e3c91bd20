import LineShell.Text.Extending
import LineShell.Text.Ignorable
import LineShell.Text.Unprintable

/-
  This module writes a text between double quotes in such a
  way that each of its characters can be seen: what has no
  shape of its own is written as an escape.

  Key definitions include:
    * `Text.hexDigits`
    * `Text.isUnseen`
    * `Text.escapedChar`
    * `Text.escaped`
-/

namespace LineShell

namespace Text

------------------------------------------------------------
-- Numbers
------------------------------------------------------------

/- The lower-case hexadecimal digits of a number. -/
def hexDigits
    (n : Nat) : String :=
  String.ofList (Nat.toDigits 16 n)

/-
  The lower-case hexadecimal digits of a number, with zeros
  in front up to the given width.
-/
def hexPadded
    (width n : Nat) : String :=
  String.ofList
    ((Nat.toDigits 16 n).leftpad width '0')

------------------------------------------------------------
-- Escapes
------------------------------------------------------------

/-
  A character cannot be seen alone: it has no shape, it only
  changes the character before it, or a page may leave it
  out. The characters from the space to the tilde are in no
  such set, so the tables are not searched for them.
-/
def isUnseen
    (c : Char) : Bool :=
  !(' ' ≤ c && c ≤ '~') &&
    (CharSet.unprintable.contains c ||
      CharSet.extending.contains c ||
      CharSet.ignorable.contains c)

/- A character cannot be seen when one of the tables has it. -/
theorem isUnseen_eq
    (c : Char) :
    isUnseen c =
      (CharSet.unprintable.contains c ||
        CharSet.extending.contains c ||
        CharSet.ignorable.contains c) := by
  unfold isUnseen
  by_cases visible : ' ' ≤ c ∧ c ≤ '~'
  · have range : 0x20 ≤ c.toNat ∧ c.toNat ≤ 0x7E := visible
    rw [CharSet.contains_eq_false (by decide +kernel) range,
      CharSet.contains_eq_false (by decide +kernel) range,
      CharSet.contains_eq_false (by decide +kernel) range]
    simp
  · simp only [← Bool.decide_and, visible, decide_false,
      Bool.not_false, Bool.true_and]

/-
  How a character is written: the quote, the backslash and
  the common controls have short escapes, and every other
  character that cannot be seen alone is given by number.
-/
def escapedChar
    (c : Char) : String :=
  match c with
  | '\x00' => "\\0"
  | '\t' => "\\t"
  | '\n' => "\\n"
  | '\r' => "\\r"
  | '\x22' => "\\\x22"
  | '\\' => "\\\\"
  | c =>
    if isUnseen c then
      "\\u\x7b" ++ hexDigits c.toNat ++ "\x7d"
    else
      String.singleton c

/- A text between double quotes, with escapes. -/
def escaped
    (text : String) : String :=
  "\x22" ++ String.join (text.toList.map escapedChar) ++
    "\x22"

end Text

end LineShell

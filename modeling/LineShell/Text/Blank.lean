/-
  This module defines the blank characters (the characters
  with the Unicode property `White_Space`) and the removal
  of blanks from the ends of a text.

  Key definitions include:
    * `Text.isBlank`
    * `Text.trimStart`
    * `Text.trimEnd`
    * `Text.trim`
-/

------------------------------------------------------------
-- Blank characters
------------------------------------------------------------

namespace LineShell

namespace Text

/-
  The characters with the property `White_Space`: the
  controls from tab to carriage return, the next-line
  control, and the separators of the space, line and
  paragraph classes.
-/
def isBlank
    (c : Char) : Bool :=
  let n := c.toNat
  (0x09 ≤ n && n ≤ 0x0D) || n = 0x20 || n = 0x85 ||
    n = 0xA0 || n = 0x1680 ||
    (0x2000 ≤ n && n ≤ 0x200A) ||
    n = 0x2028 || n = 0x2029 || n = 0x202F ||
    n = 0x205F || n = 0x3000

------------------------------------------------------------
-- Trimming
------------------------------------------------------------

/- The text without the blanks at its start. -/
def trimStart
    (text : String) : String :=
  String.ofList (text.toList.dropWhile isBlank)

/- The text without the blanks at its end. -/
def trimEnd
    (text : String) : String :=
  String.ofList
    (text.toList.reverse.dropWhile isBlank).reverse

/- The text without the blanks at either end. -/
def trim
    (text : String) : String :=
  trimEnd (trimStart text)

end Text

end LineShell

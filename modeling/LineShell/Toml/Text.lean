/-
  This module reads the strings of TOML.

  Key definitions include:
    * `Toml.withChar`
    * `Toml.readBasic`
    * `Toml.readLongBasic`
    * `Toml.readLiteral`
    * `Toml.readLongLiteral`
    * `Toml.readString`
-/

namespace LineShell

namespace Toml

/-
  Puts a character in front of those that were read. What is
  read stands before the rest of the text.
-/
def withChar
    (char : Char)
    (reading : Option (List Char × List Char)) :
    Option (List Char × List Char) :=
  reading.map fun (others, rest) => (char :: others, rest)

------------------------------------------------------------
-- Characters
------------------------------------------------------------

/- The blanks within a line. -/
def isBlank
    (c : Char) : Bool :=
  c = ' ' || c = '\t'

/-
  The characters that may stand in a document as they are:
  the tab, and everything but controls.
-/
def isPlain
    (c : Char) : Bool :=
  c = '\t' || (0x20 ≤ c.toNat && c.toNat ≠ 0x7F)

/- The value of a hexadecimal digit. -/
def hexDigit?
    (c : Char) : Option Nat :=
  if '0' ≤ c ∧ c ≤ '9' then
    some (c.toNat - '0'.toNat)
  else if 'a' ≤ c ∧ c ≤ 'f' then
    some (c.toNat - 'a'.toNat + 10)
  else if 'A' ≤ c ∧ c ≤ 'F' then
    some (c.toNat - 'A'.toNat + 10)
  else
    none

/- The number that hexadecimal digits write. -/
def hexNumber?
    (digits : List Char) : Option Nat :=
  digits.foldl
    (fun number digit => do
      some ((← number) * 16 + (← hexDigit? digit)))
    (some 0)

/- The character whose number hexadecimal digits write. -/
def hexChar?
    (digits : List Char) : Option Char := do
  let number ← hexNumber? digits
  if h : number.isValidChar then
    some (Char.ofNatAux number h)
  else
    none

/- The character for which a short escape stands. -/
def shortEscape? :
    Char → Option Char
  | 'b' => some '\x08'
  | 't' => some '\t'
  | 'n' => some '\n'
  | 'f' => some '\x0c'
  | 'r' => some '\r'
  | '\x22' => some '\x22'
  | '\\' => some '\\'
  | _ => none

------------------------------------------------------------
-- Strings of one line
------------------------------------------------------------

/-
  The rest of a string in double quotes after the opening
  one.
-/
def readBasic :
    List Char → Option (List Char × List Char)
  | [] => none
  | '\x22' :: rest => some ([], rest)
  | '\\' :: 'u' :: a :: b :: c :: d :: rest =>
    (hexChar? [a, b, c, d]).bind fun char =>
      withChar char (readBasic rest)
  | '\\' :: 'U' :: a :: b :: c :: d :: e :: f :: g :: h ::
      rest =>
    (hexChar? [a, b, c, d, e, f, g, h]).bind fun char =>
      withChar char (readBasic rest)
  | '\\' :: c :: rest =>
    (shortEscape? c).bind fun char =>
      withChar char (readBasic rest)
  | c :: rest =>
    if isPlain c ∧ c ≠ '\\' then
      withChar c (readBasic rest)
    else
      none

/-
  The rest of a string in single quotes after the opening
  one.
-/
def readLiteral :
    List Char → Option (List Char × List Char)
  | [] => none
  | '\x27' :: rest => some ([], rest)
  | c :: rest =>
    if isPlain c then
      withChar c (readLiteral rest)
    else
      none

------------------------------------------------------------
-- Strings of many lines
------------------------------------------------------------

/- A newline at the start of a long string does not count. -/
def skipNewline :
    List Char → List Char
  | '\n' :: rest => rest
  | '\r' :: '\n' :: rest => rest
  | chars => chars

/-
  How a long string goes on: with text, with the newline
  that a backslash before it takes away, or with the blanks
  and newlines after that one.
-/
inductive Continuation where
  | text
  | atBreak
  | pastBreak
deriving DecidableEq, Repr

/-
  The rest of a string in three double quotes after the
  opening ones. One or two quotes before the closing ones
  belong to the string.
-/
def readLongBasic
    (state : Continuation) :
    List Char → Option (List Char × List Char)
  | [] => none
  | '\r' :: '\n' :: rest =>
    match state with
    | .text => withChar '\n' (readLongBasic .text rest)
    | _ => readLongBasic .pastBreak rest
  | '\n' :: rest =>
    match state with
    | .text => withChar '\n' (readLongBasic .text rest)
    | _ => readLongBasic .pastBreak rest
  | '\x22' :: '\x22' :: '\x22' :: '\x22' :: '\x22' :: rest =>
    if state = .atBreak then
      none
    else
      some (['\x22', '\x22'], rest)
  | '\x22' :: '\x22' :: '\x22' :: '\x22' :: rest =>
    if state = .atBreak then none else some (['\x22'], rest)
  | '\x22' :: '\x22' :: '\x22' :: rest =>
    if state = .atBreak then none else some ([], rest)
  | '\\' :: 'u' :: a :: b :: c :: d :: rest =>
    if state = .atBreak then
      none
    else
      (hexChar? [a, b, c, d]).bind fun char =>
        withChar char (readLongBasic .text rest)
  | '\\' :: 'U' :: a :: b :: c :: d :: e :: f :: g :: h ::
      rest =>
    if state = .atBreak then
      none
    else
      (hexChar? [a, b, c, d, e, f, g, h]).bind fun char =>
        withChar char (readLongBasic .text rest)
  | '\\' :: c :: rest =>
    if state = .atBreak then
      none
    else
      match shortEscape? c with
      | some char =>
        withChar char (readLongBasic .text rest)
      | none => readLongBasic .atBreak (c :: rest)
  | c :: rest =>
    if isBlank c ∧ state ≠ .text then
      readLongBasic state rest
    else if state = .atBreak then
      none
    else if isPlain c ∧ c ≠ '\\' then
      withChar c (readLongBasic .text rest)
    else
      none

/-
  The rest of a string in three single quotes after the
  opening ones.
-/
def readLongLiteral :
    List Char → Option (List Char × List Char)
  | [] => none
  | '\r' :: '\n' :: rest =>
    withChar '\n' (readLongLiteral rest)
  | '\x27' :: '\x27' :: '\x27' :: '\x27' :: '\x27' :: rest =>
    some (['\x27', '\x27'], rest)
  | '\x27' :: '\x27' :: '\x27' :: '\x27' :: rest =>
    some (['\x27'], rest)
  | '\x27' :: '\x27' :: '\x27' :: rest => some ([], rest)
  | c :: rest =>
    if isPlain c ∨ c = '\n' then
      withChar c (readLongLiteral rest)
    else
      none

/- A string in any kind of quotes. -/
def readString :
    List Char → Option (List Char × List Char)
  | '\x22' :: '\x22' :: '\x22' :: rest =>
    readLongBasic .text (skipNewline rest)
  | '\x22' :: rest => readBasic rest
  | '\x27' :: '\x27' :: '\x27' :: rest =>
    readLongLiteral (skipNewline rest)
  | '\x27' :: rest => readLiteral rest
  | _ => none

end Toml

end LineShell

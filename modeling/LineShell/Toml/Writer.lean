import LineShell.Text.Escaped

/-
  This module writes the strings, lists and numbers of TOML.
  Of the shapes that a string may have, the first one counts
  that can show it without escapes.

  Key definitions include:
    * `Toml.Shape`
    * `Toml.Shape.ofText`
    * `Toml.writeString`
    * `Toml.writeStrings`
    * `Toml.writeEntry`
    * `Toml.writeSection`
-/

namespace LineShell

namespace Toml

------------------------------------------------------------
-- What a string holds
------------------------------------------------------------

/- The length of the longest run of a character. -/
def longestRun
    (quote : Char) :
    Nat → List Char → Nat
  | run, [] => run
  | run, c :: rest =>
    if c = quote then
      longestRun quote (run + 1) rest
    else
      max run (longestRun quote 0 rest)

/-
  A control that can stand nowhere as it is. Tabs and
  newlines are none.
-/
def needsCode
    (c : Char) : Bool :=
  c ≠ '\t' && c ≠ '\n' && (c.toNat < 0x20 || c.toNat = 0x7F)

------------------------------------------------------------
-- Shapes
------------------------------------------------------------

/- How a string can be written. -/
inductive Shape where
  | basic
  | literal
  | longBasic
  | longLiteral
deriving DecidableEq, Repr

namespace Shape

/- The quotes around a string. -/
def delimiter :
    Shape → List Char
  | basic => ['\x22']
  | literal => ['\x27']
  | longBasic => ['\x22', '\x22', '\x22']
  | longLiteral => ['\x27', '\x27', '\x27']

/- A string may go over several lines. -/
def isLong :
    Shape → Bool
  | longBasic => true
  | longLiteral => true
  | _ => false

/-
  A shape shows a text without escapes. A tab counts as
  shown.
-/
def showsPlainly
    (shape : Shape)
    (chars : List Char) : Bool :=
  !chars.any needsCode &&
    match shape with
    | basic =>
      !chars.contains '\\' && !chars.contains '\n' &&
        !chars.contains '\x22'
    | literal =>
      !chars.contains '\n' && !chars.contains '\x27'
    | longBasic =>
      !chars.contains '\\' &&
        longestRun '\x22' 0 chars ≤ 2
    | longLiteral => longestRun '\x27' 0 chars ≤ 2

/- The shapes, the preferred one first. -/
def all : List Shape :=
  [basic, literal, longBasic, longLiteral]

/-
  The shape in which a text is written. Where none shows it
  plainly, it is written with escapes.
-/
def ofText
    (chars : List Char) : Shape :=
  match all.find? (·.showsPlainly chars) with
  | some shape => shape
  | none =>
    if chars.contains '\n' then longBasic else basic

end Shape

------------------------------------------------------------
-- Strings
------------------------------------------------------------

/- The upper-case hexadecimal digits of a code below 256. -/
def codeDigits
    (c : Char) : List Char :=
  (Text.hexPadded 4 c.toNat).toList.map Char.toUpper

/-
  How a character is written in double quotes. The double
  quote itself is left to `writeBasic`.
-/
def writeChar
    (long : Bool)
    (c : Char) : List Char :=
  match c with
  | '\x08' => ['\\', 'b']
  | '\t' => ['\\', 't']
  | '\n' => if long then ['\n'] else ['\\', 'n']
  | '\x0c' => ['\\', 'f']
  | '\r' => ['\\', 'r']
  | '\\' => ['\\', '\\']
  | c =>
    if needsCode c then
      '\\' :: 'u' :: codeDigits c
    else
      [c]

/-
  A text between double quotes. As many quotes in a row as
  the limit says stand as they are.
-/
def writeBasic
    (long : Bool)
    (limit : Nat) :
    Nat → List Char → List Char
  | _, [] => []
  | run, c :: rest =>
    if c = '\x22' then
      if run < limit then
        c :: writeBasic long limit (run + 1) rest
      else
        '\\' :: c :: writeBasic long limit 0 rest
    else
      writeChar long c ++ writeBasic long limit 0 rest

/- The body of a string in a shape. -/
def writeBody
    (shape : Shape)
    (chars : List Char) : List Char :=
  match shape with
  | .basic => writeBasic false 0 0 chars
  | .longBasic => writeBasic true 2 0 chars
  | _ => chars

/-
  A string as it is written. One of several lines begins on
  a line of its own.
-/
def writeString
    (text : String) : String :=
  let chars := text.toList
  let shape := Shape.ofText chars
  let start :=
    if shape.isLong ∧ '\n' ∈ chars then ['\n'] else []
  String.ofList
    (shape.delimiter ++ start ++ writeBody shape chars ++
      shape.delimiter)

------------------------------------------------------------
-- Lists and sections
------------------------------------------------------------

/-
  A list of strings. With more than one of them, each stands
  on a line of its own.
-/
def writeStrings :
    List String → String
  | [] => "[]"
  | [text] => "[" ++ writeString text ++ "]"
  | texts =>
    "[\n" ++
      String.join
        (texts.map fun text =>
          "    " ++ writeString text ++ ",\n") ++
      "]"

/- A key with a value that is already written. -/
def writeEntry
    (entry : String × String) : String :=
  entry.1 ++ " = " ++ entry.2 ++ "\n"

/- A header with its entries. -/
def writeSection
    (name : String)
    (entries : List (String × String)) : String :=
  "[" ++ name ++ "]\n" ++
    String.join (entries.map writeEntry)

end Toml

end LineShell

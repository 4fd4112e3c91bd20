import LineShell.Toml.DateTime
import LineShell.Toml.Number
import LineShell.Toml.Table

/-
  This module reads the keys, values and statements of a
  TOML document.

  Key definitions include:
    * `Toml.readKey`
    * `Toml.readValue`
    * `Toml.Statement`
    * `Toml.statements?`
-/

namespace LineShell

namespace Toml

------------------------------------------------------------
-- Between the parts
------------------------------------------------------------

/- The text without the blanks at its start. -/
def skipBlanks
    (chars : List Char) : List Char :=
  chars.dropWhile isBlank

/- The end of a line, which may be the end of the text. -/
def skipLineEnd :
    List Char → Option (List Char)
  | [] => some []
  | '\n' :: rest => some rest
  | '\r' :: '\n' :: rest => some rest
  | _ => none

/- A comment, if there is one. -/
def skipComment :
    List Char → List Char
  | '#' :: rest => rest.dropWhile isPlain
  | chars => chars

/- What may follow a statement on its line. -/
def skipTrailing
    (chars : List Char) : Option (List Char) :=
  skipLineEnd (skipComment (skipBlanks chars))

/-
  Blanks, newlines and comments, as they may stand in a
  list. A comment ends with its line.
-/
def skipFiller
    (inComment : Bool) :
    List Char → Option (List Char)
  | [] => if inComment then none else some []
  | '\n' :: rest => skipFiller false rest
  | '\r' :: '\n' :: rest => skipFiller false rest
  | c :: rest =>
    if inComment then
      if isPlain c then skipFiller true rest else none
    else if isBlank c then
      skipFiller false rest
    else if c = '#' then
      skipFiller true rest
    else
      some (c :: rest)

------------------------------------------------------------
-- Keys
------------------------------------------------------------

/- The characters of a key without quotes. -/
def isBare
    (c : Char) : Bool :=
  c.isAlphanum || c = '-' || c = '_'

/- A part of a key, with or without quotes. -/
def readKeyPart :
    List Char → Option (String × List Char)
  | '\x22' :: rest =>
    (readBasic rest).map fun (chars, others) =>
      (String.ofList chars, others)
  | '\x27' :: rest =>
    (readLiteral rest).map fun (chars, others) =>
      (String.ofList chars, others)
  | chars =>
    match chars.takeWhile isBare with
    | [] => none
    | bare =>
      some (String.ofList bare, chars.dropWhile isBare)

/- The least number of parts that a key may not have. -/
def keyPartsLimit : Nat := 80

/-
  The parts of a key between dots, with the number of parts
  that it may have.
-/
def readKeyParts :
    Nat → List Char → Option (List String × List Char)
  | 0, _ => none
  | parts + 1, chars => do
    let (part, rest) ← readKeyPart (skipBlanks chars)
    match skipBlanks rest with
    | '.' :: rest =>
      let (others, rest) ← readKeyParts parts rest
      some (part :: others, rest)
    | rest => some ([part], rest)

/- A key. -/
def readKey
    (chars : List Char) : Option (Key × List Char) := do
  let (parts, rest) ← readKeyParts (keyPartsLimit - 1) chars
  let last ← parts.getLast?
  some (⟨parts.dropLast, last⟩, rest)

------------------------------------------------------------
-- Values
------------------------------------------------------------

/- How deep lists and tables may be nested. -/
def depthLimit : Nat := 79

/- A value that is no list and no table. -/
def readScalar
    (chars : List Char) : Option (Value × List Char) :=
  match chars with
  | '\x22' :: _ => readText
  | '\x27' :: _ => readText
  | 't' :: 'r' :: 'u' :: 'e' :: rest =>
    some (.boolean true, rest)
  | 'f' :: 'a' :: 'l' :: 's' :: 'e' :: rest =>
    some (.boolean false, rest)
  | _ =>
    match skipDateTime chars, skipFraction chars with
    | some rest, _ => some (.dateTime, rest)
    | none, some rest => some (.fraction, rest)
    | none, none =>
      (readInteger chars).map fun (value, rest) =>
        (.integer value, rest)
where
  readText : Option (Value × List Char) :=
    (readString chars).map fun (text, rest) =>
      (.string (String.ofList text), rest)

mutual

/-
  A value, with a bound on the number of steps and the depth
  that is left for lists and tables.
-/
def readValueIn :
    Nat → Nat → List Char → Option (Value × List Char)
  | 0, _, _ => none
  | steps + 1, depth, chars =>
    match chars, depth with
    | '[' :: rest, inner + 1 =>
      (readItems steps inner rest).map fun (items, rest) =>
        (.array items, rest)
    | '{' :: rest, inner + 1 => do
      let (pairs, rest) ← readPairs steps inner rest
      let table ← insertAll pairs []
      some (.table .inline table, rest)
    | '[' :: _, 0 => none
    | '{' :: _, 0 => none
    | _, _ => readScalar chars

/- The items of a list after its opening bracket. -/
def readItems :
    Nat → Nat → List Char → Option (List Value × List Char)
  | 0, _, _ => none
  | steps + 1, depth, chars => do
    match ← skipFiller false chars with
    | ']' :: rest => some ([], rest)
    | chars =>
      let (item, rest) ← readValueIn steps depth chars
      match ← skipFiller false rest with
      | ']' :: rest => some ([item], rest)
      | ',' :: rest =>
        let (items, rest) ← readItems steps depth rest
        some (item :: items, rest)
      | _ => none

/- The entries of a table after its opening brace. -/
def readPairs :
    Nat → Nat → List Char →
      Option (List (Key × Value) × List Char)
  | 0, _, _ => none
  | steps + 1, depth, chars =>
    match skipBlanks chars with
    | '}' :: rest => some ([], rest)
    | chars => readMorePairs steps depth chars

/- At least one entry of a table, and its closing brace. -/
def readMorePairs :
    Nat → Nat → List Char →
      Option (List (Key × Value) × List Char)
  | 0, _, _ => none
  | steps + 1, depth, chars => do
    let (key, rest) ← readKey chars
    let rest ← skipMark '=' rest
    let (value, rest) ←
      readValueIn steps depth (skipBlanks rest)
    match skipBlanks rest with
    | '}' :: rest => some ([(key, value)], rest)
    | ',' :: rest =>
      let (pairs, rest) ← readMorePairs steps depth rest
      some ((key, value) :: pairs, rest)
    | _ => none

end

/- A value. -/
def readValue
    (chars : List Char) : Option (Value × List Char) :=
  readValueIn (3 * chars.length + 3) depthLimit chars

------------------------------------------------------------
-- Statements
------------------------------------------------------------

/-
  What a line of a document says: a table begins, a table of
  a row begins, or a key of the table has a value.
-/
inductive Statement where
  | table (key : Key)
  | row (key : Key)
  | entry (key : Key) (value : Value)

/- A statement, with what follows it on its line. -/
def readStatement
    (chars : List Char) :
    Option (Statement × List Char) :=
  match chars with
  | '[' :: '[' :: rest => do
    let (key, rest) ← readKey rest
    let rest ← skipMark ']' rest
    let rest ← skipMark ']' rest
    let rest ← skipTrailing rest
    some (.row key, rest)
  | '[' :: rest => do
    let (key, rest) ← readKey rest
    let rest ← skipMark ']' rest
    let rest ← skipTrailing rest
    some (.table key, rest)
  | _ => do
    let (key, rest) ← readKey chars
    let rest ← skipMark '=' rest
    let (value, rest) ← readValue (skipBlanks rest)
    let rest ← skipTrailing rest
    some (.entry key value, rest)

/-
  The statements of a text, with a bound on the number of
  its lines.
-/
def statementsIn :
    Nat → List Char → Option (List Statement)
  | 0, _ => none
  | lines + 1, chars =>
    match skipBlanks chars with
    | [] => some []
    | '#' :: rest => do
      let rest ← skipTrailing ('#' :: rest)
      statementsIn lines rest
    | '\n' :: rest => statementsIn lines rest
    | '\r' :: '\n' :: rest => statementsIn lines rest
    | chars => do
      let (statement, rest) ← readStatement chars
      let others ← statementsIn lines rest
      some (statement :: others)

/- The statements of a text. -/
def statements?
    (chars : List Char) : Option (List Statement) :=
  statementsIn (chars.length + 1) chars

end Toml

end LineShell

import LineShell.Toml.Statement

/-
  This module reads TOML documents.

  Key definitions include:
    * `Toml.assemble`
    * `Toml.read?`
-/

namespace LineShell

namespace Toml

namespace Key

/- All parts of a key. -/
def parts
    (key : Key) : List String :=
  key.path ++ [key.last]

end Key

/-
  The table that statements describe, after those that led
  to a table and to the path of its current header.
-/
def assemble :
    List String → List Statement → Table → Option Table
  | _, [], table => some table
  | header, statement :: others, table =>
    match statement with
    | .table key =>
      (within (openTable key.last) key.path table).bind
        (assemble key.parts others)
    | .row key =>
      (within (openRow key.last) key.path table).bind
        (assemble key.parts others)
    | .entry key value =>
      (within (insertDotted value key.last true key.path)
        header table).bind (assemble header others)

/- A mark of the order of bytes at the start does not count. -/
def skipByteOrderMark :
    List Char → List Char
  | '\ufeff' :: rest => rest
  | chars => chars

/- The table that a text describes. -/
def read?
    (text : String) : Option Table := do
  let statements ←
    statements? (skipByteOrderMark text.toList)
  assemble [] statements []

end Toml

end LineShell

/-
  This module defines the values of TOML documents.

  Key definitions include:
    * `Toml.Origin`
    * `Toml.Value`
    * `Toml.Table`
-/

namespace LineShell

namespace Toml

/-
  How a table came to be: written in braces, named in a
  header, implied by the header of a table below it, or
  implied by a key with dots.
-/
inductive Origin where
  | inline
  | header
  | implied
  | dotted
deriving DecidableEq, Repr

/-
  A value. Of fractions and dates only that they are there
  is kept. A row of tables holds the last table first.
-/
inductive Value where
  | string (text : String)
  | integer (value : Int)
  | fraction
  | boolean (value : Bool)
  | dateTime
  | array (items : List Value)
  | table
      (origin : Origin)
      (entries : List (String × Value))
  | tables (rows : List (List (String × Value)))

/- The entries of a table, each key once. -/
abbrev Table :=
  List (String × Value)

end Toml

end LineShell

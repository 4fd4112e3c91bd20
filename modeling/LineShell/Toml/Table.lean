import LineShell.Toml.Value

/-
  This module puts entries into tables. A table that was
  written out cannot be written again, a key with dots opens
  only tables that came from such keys, and no key is given
  twice.

  Key definitions include:
    * `Toml.lookUp`
    * `Toml.store`
    * `Toml.insertDotted`
    * `Toml.insertAll`
    * `Toml.within`
    * `Toml.openTable`
    * `Toml.openRow`
-/

namespace LineShell

namespace Toml

------------------------------------------------------------
-- Entries
------------------------------------------------------------

/- The value of a key. -/
def lookUp
    (key : String)
    (table : Table) : Option Value :=
  (table.find? (·.1 = key)).map (·.2)

/- A table in which a key has a value. -/
def store
    (key : String)
    (value : Value)
    (table : Table) : Table :=
  table.filter (·.1 ≠ key) ++ [(key, value)]

/- The value that was stored last under a key counts. -/
theorem lookUp_store
    (key other : String)
    (value : Value)
    (table : Table) :
    lookUp other (store key value table) =
      if key = other then
        some value
      else
        lookUp other table := by
  have hFilter :
      (table.filter (·.1 ≠ key)).find? (·.1 = other) =
        if key = other then
          none
        else
          table.find? (·.1 = other) := by
    induction table with
    | nil => simp
    | cons entry rest ih =>
      by_cases hKey : entry.1 = key
      · subst hKey
        by_cases hOther : entry.1 = other
        · simp [hOther]
        · simpa [hOther] using ih
      · by_cases hOther : entry.1 = other
        · subst hOther
          simp [hKey, Ne.symm hKey]
        · simpa [hKey, hOther] using ih
  unfold lookUp store
  rw [List.find?_append, hFilter]
  split <;> simp_all

------------------------------------------------------------
-- Keys with dots
------------------------------------------------------------

/-
  A table with one more value under a key, after the parts
  of the key before its last dot. The value may only go into
  a table that is open to it.
-/
def insertDotted
    (value : Value)
    (key : String) :
    Bool → List String → Table → Option Table
  | isOpen, [], table =>
    if isOpen ∧ (lookUp key table).isNone then
      some (store key value table)
    else
      none
  | _, first :: path, table =>
    match lookUp first table with
    | none =>
      (insertDotted value key true path []).map fun inner =>
        store first (.table .dotted inner) table
    | some (.table .dotted entries) =>
      (insertDotted value key true path entries).map
        fun inner => store first (.table .dotted inner) table
    | some (.table .implied entries) =>
      (insertDotted value key false path entries).map
        fun inner => store first (.table .implied inner) table
    | some (.tables (last :: before)) =>
      (insertDotted value key false path last).map
        fun inner =>
          store first (.tables (inner :: before)) table
    | some _ => none

/- A key, as its parts before the last dot and its last part. -/
structure Key where
  path : List String
  last : String
deriving DecidableEq, Repr

/- A table of values under keys, in the order of writing. -/
def insertAll :
    List (Key × Value) → Table → Option Table
  | [], table => some table
  | (key, value) :: others, table =>
    (insertDotted value key.last true key.path table).bind
      (insertAll others)

------------------------------------------------------------
-- Headers
------------------------------------------------------------

/-
  Changes the table to which a path leads. Tables that are
  missing on the way are implied, and a row of tables stands
  for its last one.
-/
def within
    (change : Table → Option Table) :
    List String → Table → Option Table
  | [], table => change table
  | first :: path, table =>
    match lookUp first table with
    | none =>
      (within change path []).map fun inner =>
        store first (.table .implied inner) table
    | some (.table .inline _) => none
    | some (.table origin entries) =>
      (within change path entries).map fun inner =>
        store first (.table origin inner) table
    | some (.tables (last :: before)) =>
      (within change path last).map fun inner =>
        store first (.tables (inner :: before)) table
    | some _ => none

/- A table in which a header opens a table. -/
def openTable
    (key : String)
    (table : Table) : Option Table :=
  match lookUp key table with
  | none => some (store key (.table .header []) table)
  | some (.table .implied entries) =>
    some (store key (.table .header entries) table)
  | some _ => none

/- A table in which a header adds a table to a row. -/
def openRow
    (key : String)
    (table : Table) : Option Table :=
  match lookUp key table with
  | none => some (store key (.tables [[]]) table)
  | some (.tables rows) =>
    some (store key (.tables ([] :: rows)) table)
  | some _ => none

end Toml

end LineShell

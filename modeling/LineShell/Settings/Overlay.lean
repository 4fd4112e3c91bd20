import LineShell.Settings.Basic
import LineShell.Text.Utf8
import LineShell.Toml.Document

/-
  This module reads the choices of a user and applies them
  to settings. A file with a choice that cannot be read
  chooses nothing.

  Key definitions include:
    * `Overlay`
    * `Overlay.Section`
    * `Overlay.ofTable?`
    * `Overlay.mergeList`
    * `Overlay.apply`
    * `Settings.load`
-/

namespace LineShell

/-
  What a user chose. The list of disabled commands is either
  replaced, or some names are taken from it and others are
  added.
-/
structure Overlay where
  prompt : Option String
  logLevel : Option String
  logFile : Option String
  historyFile : Option String
  replace : Bool
  disabled : List String
  removeDisabled : List String
  dateFormat : Option String
  pageLines : Option Nat
deriving DecidableEq, Repr

namespace Overlay

open Toml (Value Table)

------------------------------------------------------------
-- Values
------------------------------------------------------------

/- A value that is a text. -/
def text? :
    Value → Option String
  | .string text => some text
  | _ => none

/- A value that is a truth value. -/
def flag? :
    Value → Option Bool
  | .boolean flag => some flag
  | _ => none

/- A value that is a count. -/
def count? :
    Value → Option Nat
  | .integer value =>
    if 0 ≤ value then some value.toNat else none
  | _ => none

/- A value that is a list of texts. -/
def texts? :
    Value → Option (List String)
  | .array items => items.mapM text?
  | _ => none

------------------------------------------------------------
-- Sections
------------------------------------------------------------

/-
  The values of a section: by key, or in the order of its
  fields. A date is a section without fields that are known.
-/
inductive Section where
  | keyed (entries : Table)
  | listed (items : List Value)

namespace Section

/- The section of a key. One that is missing is empty. -/
def of?
    (key : String)
    (table : Table) : Option Section :=
  match Toml.lookUp key table with
  | none => some (.keyed [])
  | some (.table _ entries) => some (.keyed entries)
  | some (.array items) => some (.listed items)
  | some (.tables rows) =>
    some (.listed (rows.reverse.map (.table .header)))
  | some .dateTime => some (.keyed [])
  | some _ => none

/- The value of a field, by its key or its position. -/
def value?
    (fields : Section)
    (position : Nat)
    (key : String) : Option Value :=
  match fields with
  | keyed entries => Toml.lookUp key entries
  | listed items => items[position]?

/-
  A field that may be left out. In a list of values it has
  to be there.
-/
def optional?
    {α : Type}
    (fields : Section)
    (position : Nat)
    (key : String)
    (read : Value → Option α) : Option (Option α) :=
  match fields.value? position key, fields with
  | some value, _ => (read value).map some
  | none, keyed _ => some none
  | none, listed _ => none

/- A field for which there is something to fall back on. -/
def withDefault?
    {α : Type}
    (fields : Section)
    (position : Nat)
    (key : String)
    (read : Value → Option α)
    (default : α) : Option α :=
  match fields.value? position key with
  | some value => read value
  | none => some default

end Section

------------------------------------------------------------
-- Reading
------------------------------------------------------------

/-
  What a table chooses. Keys that are not known say nothing,
  and a known one with a value of the wrong kind spoils the
  whole.
-/
def ofTable?
    (table : Table) : Option Overlay := do
  let settings ← Section.of? "settings" table
  let commands ← Section.of? "commands" table
  let date ← Section.of? "date" table
  let more ← Section.of? "more" table
  some
    { prompt := ← settings.optional? 0 "prompt" text?
      logLevel := ← settings.optional? 1 "log_level" text?
      logFile := ← settings.optional? 2 "log_file" text?
      historyFile :=
        ← settings.optional? 3 "history_file" text?
      replace :=
        ← commands.withDefault? 0 "replace" flag? false
      disabled :=
        ← commands.withDefault? 1 "disabled" texts? []
      removeDisabled :=
        ← commands.withDefault? 2 "remove_disabled" texts? []
      dateFormat := ← date.optional? 0 "format" text?
      pageLines := ← more.optional? 0 "page_lines" count? }

/- What the bytes of a file choose, if they can be read. -/
def ofBytes?
    (bytes : ByteArray) : Option Overlay :=
  ((Utf8.decode? bytes).bind Toml.read?).bind ofTable?

------------------------------------------------------------
-- Applying
------------------------------------------------------------

/-
  A list with more names at its end, each of them once and
  none that is there already.
-/
def addNew
    (base added : List String) : List String :=
  added.foldl
    (fun names name =>
      if name ∈ names then names else names ++ [name])
    base

/-
  A list of names after a choice: the chosen names alone, or
  those of before without the removed ones, and then the
  chosen ones that are new.
-/
def mergeList
    (base added removed : List String)
    (replace : Bool) : List String :=
  if replace then
    added
  else
    addNew (base.filter (· ∉ removed)) added

/- Settings after a user's choices. -/
def apply
    (overlay : Overlay)
    (settings : Settings) : Settings where
  prompt := overlay.prompt.getD settings.prompt
  logLevel := overlay.logLevel.getD settings.logLevel
  logFile := overlay.logFile.getD settings.logFile
  historyFile :=
    overlay.historyFile.getD settings.historyFile
  disabled :=
    mergeList settings.disabled overlay.disabled
      overlay.removeDisabled overlay.replace
  dateFormat := overlay.dateFormat.getD settings.dateFormat
  pageLines := overlay.pageLines.getD settings.pageLines

end Overlay

namespace Settings

/-
  The standard settings with the choices of a file, if there
  is a file and it can be read.
-/
def load
    (bytes : Option ByteArray) : Settings :=
  match bytes.bind Overlay.ofBytes? with
  | none => standard
  | some overlay => overlay.apply standard

end Settings

end LineShell

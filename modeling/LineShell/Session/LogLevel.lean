import LineShell.Text.Blank

/-
  This module defines how much of a log is wanted, and how
  much a record of it matters.

  Key definitions include:
    * `LogLevel`
    * `LogLevel.ofText`
-/

namespace LineShell

/- The levels of a log, from nothing to everything. -/
inductive LogLevel where
  | off
  | error
  | warn
  | info
  | debug
  | trace
deriving DecidableEq, Repr

namespace LogLevel

/- Every level. -/
def all : List LogLevel :=
  [off, error, warn, info, debug, trace]

/- The name of a level. -/
def name :
    LogLevel → String
  | off => "OFF"
  | error => "ERROR"
  | warn => "WARN"
  | info => "INFO"
  | debug => "DEBUG"
  | trace => "TRACE"

/-
  The level that a text names, with blanks around the name
  and in letters of either case. Any other text stands for
  warnings.
-/
def ofText
    (text : String) : LogLevel :=
  let letters :=
    (Text.trim text).toList.map Char.toUpper
  (all.find? (·.name.toList = letters)).getD warn

end LogLevel

end LineShell

import LineShell.Text.Blank

/-
  This module defines the settings of a shell and the places
  of its files.

  Key definitions include:
    * `Settings`
    * `Settings.standard`
    * `Settings.expandPath`
    * `Settings.logPath`
    * `Settings.historyPath`
-/

namespace LineShell

/- What can be chosen about a shell. -/
structure Settings where
  prompt : String
  logLevel : String
  logFile : String
  historyFile : String
  disabled : List String
  dateFormat : String
  pageLines : Nat
deriving DecidableEq, Repr

namespace Settings

/- The settings of a shell for which nothing was chosen. -/
def standard : Settings where
  prompt := "$ "
  logLevel := "warn"
  logFile := "~/.local/share/lineterm/lineterm.log"
  historyFile := "~/.local/share/lineterm/history"
  disabled := []
  dateFormat := "%a %b %e %H:%M:%S %Y"
  pageLines := 20

------------------------------------------------------------
-- Places of files
------------------------------------------------------------

/-
  A path of which a tilde at the start, alone or before a
  slash, stands for a home directory. Nothing but blanks
  names no file.
-/
def expandPath
    (home raw : String) : Option String :=
  match (Text.trim raw).toList with
  | [] => none
  | ['~'] => some home
  | '~' :: '/' :: rest =>
    some (home ++ String.ofList ('/' :: rest))
  | path => some (String.ofList path)

/- The file of the log, if there is one. -/
def logPath
    (settings : Settings)
    (home : String) : Option String :=
  expandPath home settings.logFile

/- The file of the history, if there is one. -/
def historyPath
    (settings : Settings)
    (home : String) : Option String :=
  expandPath home settings.historyFile

end Settings

end LineShell

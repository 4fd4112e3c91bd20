import LineShell.Command.Date
import LineShell.Command.FileManagement
import LineShell.Command.Guide
import LineShell.Command.Navigation
import LineShell.Command.Reading
import LineShell.Command.Registry
import LineShell.Settings.Basic

/-
  This module collects the commands that every shell has,
  unless its settings disable some of them.

  Key definitions include:
    * `Registry.standardCommands`
    * `Registry.insertAll`
    * `Registry.standard`
-/

namespace LineShell

namespace Registry

/-
  The commands of a shell before any are disabled, with the
  replies of a user if the shell is at a terminal.
-/
def standardCommands
    (clock : Clock)
    (settings : Settings)
    (replies : Option (List UInt8) := none) :
    List Command :=
  [Guide.args, Reading.cat, Navigation.cd, Guide.clear,
    FileManagement.cp, Date.date clock settings.dateFormat,
    Guide.help, Navigation.ls, FileManagement.mkdir,
    Reading.more settings.pageLines replies,
    FileManagement.mv, Navigation.pwd, FileManagement.rm,
    FileManagement.rmdir]

/- A registry with more commands, inserted in their order. -/
def insertAll
    (registry : Registry)
    (commands : List Command) : Registry :=
  commands.foldl insert registry

/- The commands that the settings do not disable. -/
def standard
    (clock : Clock)
    (settings : Settings)
    (replies : Option (List UInt8) := none) : Registry :=
  empty.insertAll
    ((standardCommands clock settings replies).filter
      fun command => command.name ∉ settings.disabled)

end Registry

end LineShell

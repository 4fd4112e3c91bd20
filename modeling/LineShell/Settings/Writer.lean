import LineShell.Settings.Basic
import LineShell.Toml.Number
import LineShell.Toml.Writer

/-
  This module writes settings as a TOML document.

  Key definitions include:
    * `Settings.toToml`
    * `Settings.toToml?`
-/

namespace LineShell

namespace Settings

/- Settings as a document that chooses exactly them. -/
def toToml
    (settings : Settings) : String :=
  "\n".intercalate
    [Toml.writeSection "settings"
      [("prompt", Toml.writeString settings.prompt),
        ("log_level", Toml.writeString settings.logLevel),
        ("log_file", Toml.writeString settings.logFile),
        ("history_file",
          Toml.writeString settings.historyFile)],
      Toml.writeSection "commands"
        [("disabled", Toml.writeStrings settings.disabled)],
      Toml.writeSection "date"
        [("format", Toml.writeString settings.dateFormat)],
      Toml.writeSection "more"
        [("page_lines", toString settings.pageLines)]]

/-
  The document, if there is one: a count has to be an integer
  of sixty-four bits.
-/
def toToml?
    (settings : Settings) : Option String :=
  if Toml.isInRange settings.pageLines then
    some settings.toToml
  else
    none

end Settings

end LineShell

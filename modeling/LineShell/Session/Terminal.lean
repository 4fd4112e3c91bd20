import LineShell.Command.Standard
import LineShell.Session.Evaluate

/-
  This module runs lines as a terminal does: with the
  standard commands, and with a word that ends the session.

  Key definitions include:
    * `isExit`
    * `Terminal`
    * `Terminal.runLine`
    * `Terminal.runLines`
-/

namespace LineShell

/- A line whose only word is `exit` ends a session. -/
def isExit
    (line : String) : Bool :=
  match Scan.ofLine line with
  | .ok scan =>
    scan.boundary = none && scan.words = ["exit"]
  | .error _ => false

/- A shell together with what its lines have done so far. -/
structure Terminal where
  shell : Shell
  world : World

namespace Terminal

/-
  A terminal with the standard commands that starts in a
  directory.
-/
def start
    (clock : Clock)
    (settings : Settings)
    (interactive : Bool)
    (directory : String)
    (files : FileSystem) : Terminal where
  shell := ⟨Registry.standard clock settings, interactive⟩
  world := ⟨files, Directories.startingAt directory⟩

/- Evaluates a line without input. -/
def runLine
    (terminal : Terminal)
    (line : String) : Run :=
  terminal.shell.evaluate line none terminal.world

/- The terminal after a line. -/
def after
    (terminal : Terminal)
    (line : String) : Terminal :=
  { terminal with world := (terminal.runLine line).world }

/- The runs of lines, one after the other. -/
def runLines
    (terminal : Terminal) :
    List String → List Run
  | [] => []
  | line :: lines =>
    terminal.runLine line ::
      runLines (terminal.after line) lines

end Terminal

end LineShell

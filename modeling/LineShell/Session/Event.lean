import LineShell.Command.Basic
import LineShell.Line.Directive
import LineShell.Session.LogLevel
import LineShell.Text.ShellWord

/-
  This module defines what is worth a record in the log
  while a line is evaluated.

  Key definitions include:
    * `Event`
    * `Event.level`
    * `Event.message`
    * `Event.record`
-/

namespace LineShell

/-
  What happens during an evaluation: a text turns out to be
  a directive or to be none, a command is entered or fails,
  the directory changes or a change of it is not allowed,
  and a redirect writes or cannot write.
-/
inductive Event where
  | recognized (line : String) (kind : Directive.Kind)
  | unrecognized (line : String) (fault : UnclosedQuote)
  | entered (name : String) (args : List String)
  | commandFailed (name : String) (fault : Fault)
  | moved (before after : String)
  | moveIgnored (name directory : String)
  | wrote
      (bytes : Nat)
      (path : String)
      (mode : WriteMode)
  | writeFailed (path : String) (cause : FileError)
deriving DecidableEq, Repr

namespace Event

/- How much an event matters. -/
def level :
    Event → LogLevel
  | recognized _ _ => .debug
  | unrecognized _ _ => .debug
  | entered _ _ => .debug
  | commandFailed _ _ => .debug
  | moved _ _ => .info
  | moveIgnored _ _ => .warn
  | wrote _ _ _ => .debug
  | writeFailed _ _ => .warn

/- The name of a way of writing. -/
def modeName :
    WriteMode → String
  | .truncate => "Truncate"
  | .append => "Append"

/- The sentence that records an event. -/
def message :
    Event → String
  | recognized line kind =>
    "partitioned " ++ Text.escaped line ++ " as " ++
      kind.name
  | unrecognized line fault =>
    "syntax error in " ++ Text.escaped line ++ ": " ++
      fault.message
  | entered name args =>
    "dispatch " ++
      (ShellWord.join? (name :: args)).getD name
  | commandFailed name fault =>
    name ++ " failed: " ++ fault.message
  | moved before after =>
    "cwd " ++ before ++ " -> " ++ after
  | moveIgnored name directory =>
    name ++ " may not change directory, ignoring " ++
      directory
  | wrote bytes path mode =>
    "wrote " ++ toString bytes ++ " bytes to " ++ path ++
      " (" ++ modeName mode ++ ")"
  | writeFailed path cause =>
    "redirect to " ++ path ++ " failed: " ++ cause.message

/- An event as a line of the log. -/
def record
    (event : Event) : String :=
  event.level.name ++ " " ++ event.message

end Event

end LineShell

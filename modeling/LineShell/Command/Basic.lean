import LineShell.Command.Signature
import LineShell.FileSystem.Access
import LineShell.Session.Directories
import LineShell.Session.Outcome

/-
  This module defines commands: what they are given, what
  they may answer, and why they may fail.

  Key definitions include:
    * `Call`
    * `Fault`
    * `Answer`
    * `Command`
-/

namespace LineShell

------------------------------------------------------------
-- Calls
------------------------------------------------------------

/-
  What a command may look at while it runs, apart from the
  file system. The input is the text of the stage before it,
  and a call is interactive when its text goes straight to a
  user.
-/
structure Call where
  args : List String
  input : Option String
  directories : Directories
  catalogue : List Signature
  interactive : Bool

namespace Call

/- A path as it is meant where the command is called. -/
def resolve
    (call : Call)
    (raw : String) : String :=
  call.directories.resolve raw

/- The argument at a position, or nothing beyond the last. -/
def arg
    (call : Call)
    (position : Nat) : String :=
  call.args.getD position ""

/- The entry of the catalogue under a name. -/
def describe?
    (call : Call)
    (name : String) : Option Signature :=
  call.catalogue.find? (·.name = name)

end Call

------------------------------------------------------------
-- Faults
------------------------------------------------------------

/- Why a command fails. -/
inductive Fault where
  | atPath (path : String) (cause : FileError)
  | sourceIsDirectory (path : String)
  | sameFile (source target : String)
  | noFileName (path : String)
  | intoItself (source : String)
  | nothingToShow (command : String)
  | noSuchCommand (name : String)
  | invalidFormat (pattern : String)
  | failed (message : String)
deriving DecidableEq, Repr

namespace Fault

/- The status of a line that ends in a fault. -/
def status :
    Fault → Status
  | atPath _ _ => .ioError
  | _ => .genericError

/- The sentence that reports a fault. -/
def message :
    Fault → String
  | atPath path cause => path ++ ": " ++ cause.message
  | sourceIsDirectory path =>
    "cp: " ++ path ++ ": is a directory"
  | sameFile source target =>
    "cp: " ++ source ++ " and " ++ target ++
      " are the same file"
  | noFileName path => path ++ ": has no file name"
  | intoItself source =>
    "mv: cannot move " ++ source ++ " into itself"
  | nothingToShow command =>
    command ++ ": expected a file or piped input"
  | noSuchCommand name => name ++ ": no such command"
  | invalidFormat pattern =>
    "date: invalid format " ++ Text.escaped pattern
  | failed message => message

end Fault

------------------------------------------------------------
-- Answers
------------------------------------------------------------

/-
  What a command leaves behind: the file system, the
  directories that it asked to go to, one after the other,
  and its text or its fault.
-/
structure Answer where
  files : FileSystem
  requested : List String
  result : Except Fault (Option String)

namespace Answer

/- An answer that changes no file. -/
def plain
    (files : FileSystem)
    (text : Option String) : Answer :=
  ⟨files, [], .ok text⟩

/- An answer that reports a fault. -/
def fail
    (files : FileSystem)
    (fault : Fault) : Answer :=
  ⟨files, [], .error fault⟩

/-
  An answer that depends on a look at a path. A failed look
  is reported with the path.
-/
def looking
    {α : Type}
    (files : FileSystem)
    (path : String)
    (look : Except FileError α)
    (next : α → Answer) : Answer :=
  match look with
  | .ok value => next value
  | .error cause => fail files (.atPath path cause)

/-
  An answer without a text that changes files at a path. A
  failed change leaves the file system as it was.
-/
def changing
    (files : FileSystem)
    (path : String)
    (change : Except FileError FileSystem) : Answer :=
  looking files path change (plain · none)

end Answer

------------------------------------------------------------
-- Commands
------------------------------------------------------------

/- A signature together with what the command does. -/
structure Command where
  signature : Signature
  run : Call → FileSystem → Answer

end LineShell

import LineShell.Path

/-
  This module defines where a session stands: its current
  directory and the one in which it started.

  Key definitions include:
    * `Directories`
    * `Directories.startingAt`
    * `Directories.resolve`
-/

namespace LineShell

/-
  The directory against which relative paths are read, and
  the one to which a session returns.
-/
structure Directories where
  current : String
  home : String
deriving DecidableEq, Repr

namespace Directories

/- A session that starts in a directory. -/
def startingAt
    (directory : String) : Directories :=
  let start := Path.normalize directory
  ⟨start, start⟩

/- A path as it is meant in the current directory. -/
def resolve
    (directories : Directories)
    (raw : String) : String :=
  Path.resolve raw directories.current

end Directories

end LineShell

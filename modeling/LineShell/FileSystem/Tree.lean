import LineShell.FileSystem.Table

/-
  This module lists what lies below a directory.

  Key definitions include:
    * `FileSystem.relativePath`
    * `FileSystem.below`
-/

namespace LineShell

namespace FileSystem

/- The path of a location as it is shown in a directory. -/
def relativePath
    (base location : Location) : String :=
  "/".intercalate
    ((location.take (location.length - base.length)).reverse.map
      (·.raw.shown))

/-
  The entries below a directory, with their paths in it, in
  the order of these paths.
-/
def below
    (files : FileSystem)
    (base : Location) : List (String × Node) :=
  let inside :=
    files.entries.filter fun entry =>
      entry.1.IsWithin base ∧ entry.1 ≠ base
  (inside.map fun entry =>
    (relativePath base entry.1, entry.2)).mergeSort
      fun first second => decide (first.1 ≤ second.1)

end FileSystem

end LineShell

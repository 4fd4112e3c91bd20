/-
  This module resolves path texts without looking at any
  file system: `.` and `..` are taken as written, so that
  every text resolves to some path.

  Key definitions include:
    * `Path.components`
    * `Path.join`
    * `Path.parent?`
    * `Path.fileName?`
    * `Path.isWithin`
    * `Path.upward`
    * `Path.normalize`
    * `Path.resolve`
-/

namespace LineShell

namespace Path

------------------------------------------------------------
-- Components
------------------------------------------------------------

/-
  The components of a path: its pieces between slashes,
  without the empty ones and without `.`.
-/
def components
    (path : String) : List String :=
  ((path.toList.splitOn '/').map String.ofList).filter
    fun piece => piece ≠ "" ∧ piece ≠ "."

/- A path is absolute when it starts with a slash. -/
def isAbsolute
    (path : String) : Bool :=
  path.toList.head? = some '/'

/-
  The slash that an absolute path starts with, and nothing
  for a relative one.
-/
def rootOf
    (path : String) : String :=
  if isAbsolute path then "/" else ""

------------------------------------------------------------
-- Joining and cutting
------------------------------------------------------------

/-
  A path below a base. An absolute path replaces the base,
  and one slash stands between the two.
-/
def join
    (base path : String) : String :=
  if isAbsolute path ∨ base = "" then
    path
  else if base.toList.getLast? = some '/' then
    base ++ path
  else
    base ++ "/" ++ path

/-
  The path without its last component, or nothing for a
  path without components.
-/
def parent?
    (path : String) : Option String :=
  match components path with
  | [] => none
  | first :: others =>
    some
      (rootOf path ++
        "/".intercalate (first :: others).dropLast)

/- The last component, unless it is `..`. -/
def fileName?
    (path : String) : Option String :=
  match (components path).getLast? with
  | some ".." => none
  | last => last

/-
  A path is within a base when the components of the base
  are its first ones.
-/
def isWithin
    (base path : String) : Bool :=
  isAbsolute base = isAbsolute path &&
    (components base).isPrefixOf (components path)

/-
  A path and the paths above it, the longest first. The root
  and the empty path are left out.
-/
def upward
    (path : String) : List String :=
  let all := components path
  (List.range all.length).reverse.map fun index =>
    rootOf path ++ "/".intercalate (all.take (index + 1))

------------------------------------------------------------
-- Resolution
------------------------------------------------------------

/-
  The text before the last slash. The root keeps its slash,
  and a path without slashes climbs to the empty one.
-/
def climb
    (path : String) : String :=
  match path.toList.reverse.dropWhile (· ≠ '/') with
  | [] => ""
  | ['/'] => "/"
  | _ :: front => String.ofList front.reverse

/-
  The path after one more component: `..` takes the last
  component away, where there is one, and every other
  component is added.
-/
def step
    (path component : String) : String :=
  if component = ".." then
    climb path
  else
    join path component

/-
  The path without `.`, `..`, empty components and slashes
  at the end. The root stands for a path of which nothing is
  left.
-/
def normalize
    (path : String) : String :=
  let result :=
    (components path).foldl step (rootOf path)
  if result = "" then "/" else result

/- A path as it is meant in a directory. -/
def resolve
    (raw directory : String) : String :=
  normalize (join directory raw)

end Path

end LineShell

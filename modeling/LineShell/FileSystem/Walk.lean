import LineShell.FileSystem.Table

/-
  This module finds the place that a path text names in a
  file system: it takes the path step by step from the root
  and follows the symbolic links on the way.

  Key definitions include:
    * `Step`
    * `Step.ofPath`
    * `Spot`
    * `LastStep`
    * `FileSystem.walk`
    * `FileSystem.locate`

  A path that does not start with a slash is taken from the
  root, like one that does.
-/

namespace LineShell

------------------------------------------------------------
-- Steps of a path
------------------------------------------------------------

/-
  One step of a path: stay, go up, go to a name, or name
  something that cannot exist. A slash at the end of a path
  is a step of its own.
-/
inductive Step where
  | stay
  | up
  | down (name : Name)
  | unusable
  | slash
deriving DecidableEq

namespace Step

/- The step that a piece of a path between slashes stands for. -/
def ofPiece
    (piece : RawText) : Step :=
  if piece = .ofText "." then
    .stay
  else if piece = .ofText ".." then
    .up
  else if h : IsName piece then
    .down ⟨piece, h⟩
  else
    .unusable

/- The steps of a path. -/
def ofPath
    (path : RawText) : List Step :=
  let pieces := path.bytes.splitOn slashByte
  let steps :=
    (pieces.filter (· ≠ [])).map fun piece =>
      ofPiece ⟨piece⟩
  if pieces.getLast? = some [] then
    steps ++ [.slash]
  else
    steps

end Step

------------------------------------------------------------
-- Spots
------------------------------------------------------------

/-
  What a path leads to: an entry, or a name that is free in
  an existing directory.
-/
inductive Spot where
  | found (location : Location) (node : Node)
  | vacant (directory : Location) (name : Name)
deriving DecidableEq

/-
  What a walk does with its last step: follow a link, stop
  at the link itself, or follow it with the wish to create
  what it leads to.
-/
inductive LastStep where
  | follow
  | keep
  | create
deriving DecidableEq

------------------------------------------------------------
-- Walking
------------------------------------------------------------

/- How many links one walk may follow. -/
def maxLinks : Nat := 40

/- The number of bytes from which on a path is too long. -/
def pathBytesLimit : Nat := 4096

namespace FileSystem

/-
  Takes steps from a directory up to the first link, which
  is handed on with the steps that remain.
-/
def walkSteps
    (files : FileSystem)
    (last : LastStep)
    (jump :
      Location → RawText → List Step → Except Errno Spot) :
    Location → List Step → Except Errno Spot
  | here, [] => .ok (.found here .directory)
  | here, .stay :: rest => walkSteps files last jump here rest
  | here, .slash :: rest =>
    walkSteps files last jump here rest
  | here, .up :: rest =>
    walkSteps files last jump here.tail rest
  | _, .unusable :: _ => .error .nameTooLong
  | here, .down name :: rest =>
    if last = .create ∧ rest = [.slash] then
      .error .isDirectory
    else
      match files.get? (name :: here) with
      | none =>
        if rest = [] then
          .ok (.vacant here name)
        else
          .error .noEntry
      | some .directory =>
        walkSteps files last jump (name :: here) rest
      | some (.link target) =>
        if last = .keep ∧ rest = [] then
          .ok (.found (name :: here) (.link target))
        else
          jump here target rest
      | some node =>
        if rest = [] then
          .ok (.found (name :: here) node)
        else
          .error .notDirectory

/-
  Takes steps from a directory and follows at most the given
  number of links. A link is read from the directory that
  holds it, unless it starts with a slash.
-/
def walk
    (files : FileSystem)
    (last : LastStep) :
    Nat → Location → List Step → Except Errno Spot
  | 0 =>
    walkSteps files last fun _ _ _ => .error .tooManyLinks
  | links + 1 =>
    walkSteps files last fun here target rest =>
      if target.bytes = [] then
        .error .noEntry
      else
        walk files last links
          (if target.bytes.head? = some slashByte then
            []
          else
            here)
          (Step.ofPath target ++ rest)

/- The place that a path names. -/
def locate
    (files : FileSystem)
    (last : LastStep)
    (path : String) : Except FileError Spot :=
  if '\x00' ∈ path.toList then
    .error .nulInPath
  else if path = "" then
    .error (.refused .noEntry)
  else if pathBytesLimit ≤ path.utf8ByteSize then
    .error (.refused .nameTooLong)
  else
    (walk files last maxLinks [] (Step.ofPath path)).mapError
      FileError.refused

end FileSystem

end LineShell

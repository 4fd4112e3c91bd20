import LineShell.FileSystem.Walk
import LineShell.Line.Directive
import LineShell.Path

/-
  This module defines the operations on files by path. Those
  that change a file system give back the changed one or the
  cause of their failure; an operation of several steps
  gives back the file system that it leaves in either case.

  Key definitions include:
    * `FileSystem.nodeAt`
    * `FileSystem.linkNodeAt`
    * `FileSystem.isDirectoryAt`
    * `FileSystem.listDirectory`
    * `FileSystem.readFile`
    * `FileSystem.writeFile`
    * `FileSystem.copyFile`
    * `FileSystem.rename`
    * `FileSystem.removeFile`
    * `FileSystem.removeDirectory`
    * `FileSystem.makeDirectory`
    * `FileSystem.makeDirectories`
    * `FileSystem.makeLink`
-/

namespace LineShell

/-
  What an operation of several steps leaves behind: the file
  system, and the cause of failure if a step failed.
-/
structure Progress where
  files : FileSystem
  fault : Option FileError

namespace FileSystem

------------------------------------------------------------
-- Looking
------------------------------------------------------------

/- The node that a path names, with links followed. -/
def nodeAt
    (files : FileSystem)
    (path : String) : Except FileError Node := do
  match ← files.locate .follow path with
  | .found _ node => .ok node
  | .vacant _ _ => .error (.refused .noEntry)

/- The node that a path names, which may be a link. -/
def linkNodeAt
    (files : FileSystem)
    (path : String) : Except FileError Node := do
  match ← files.locate .keep path with
  | .found _ node => .ok node
  | .vacant _ _ => .error (.refused .noEntry)

/- A path names a directory, with links followed. -/
def isDirectoryAt
    (files : FileSystem)
    (path : String) : Bool :=
  match files.nodeAt path with
  | .ok node => node.isDirectory
  | .error _ => false

/- The entries of the directory that a path names. -/
def listDirectory
    (files : FileSystem)
    (path : String) :
    Except FileError (List (Name × Node)) := do
  match ← files.locate .follow path with
  | .found location .directory =>
    .ok (files.children location)
  | .found _ _ => .error (.refused .notDirectory)
  | .vacant _ _ => .error (.refused .noEntry)

/- The bytes of the file that a path names. -/
def readFile
    (files : FileSystem)
    (path : String) : Except FileError ByteArray := do
  match ← files.nodeAt path with
  | .file content => .ok content
  | .nullDevice => .ok ByteArray.empty
  | .directory => .error (.refused .isDirectory)
  | .link _ => .error (.refused .tooManyLinks)

------------------------------------------------------------
-- Writing
------------------------------------------------------------

/- What a file holds after bytes were written to it. -/
def writtenContent
    (mode : WriteMode)
    (old bytes : ByteArray) : ByteArray :=
  match mode with
  | .truncate => bytes
  | .append => old ++ bytes

/-
  Writes bytes to the file that a path names, with links
  followed. The file is created where there is none.
-/
def writeFile
    (files : FileSystem)
    (mode : WriteMode)
    (path : String)
    (bytes : ByteArray) : Except FileError FileSystem := do
  match ← files.locate .create path with
  | .found location (.file old) =>
    (files.put location
      (.file (writtenContent mode old bytes))).mapError
        .refused
  | .found _ .nullDevice => .ok files
  | .found _ .directory => .error (.refused .isDirectory)
  | .found _ (.link _) => .error (.refused .tooManyLinks)
  | .vacant directory name =>
    (files.put (name :: directory) (.file bytes)).mapError
      .refused

/-
  Copies the bytes of one file into another. The target is
  emptied before the source is read, so that a file that is
  copied onto itself ends up empty.
-/
def copyFile
    (files : FileSystem)
    (source target : String) :
    Except FileError FileSystem := do
  match ← files.nodeAt source with
  | .file _ =>
    let emptied ←
      files.writeFile .truncate target ByteArray.empty
    let bytes ← emptied.readFile source
    emptied.writeFile .append target bytes
  | _ => .error .irregularSource

------------------------------------------------------------
-- Moving
------------------------------------------------------------

/-
  Moves an entry to a location. What is there already gives
  way if it is of the same kind as the entry: a directory
  has to be empty. No directory moves below itself.
-/
def replace
    (files : FileSystem)
    (source : Location)
    (node : Node)
    (target : Location) : Except Errno FileSystem :=
  if source = [] ∨ target = [] then
    .error .busy
  else if Location.IsWithin target.tail source then
    .error .invalid
  else if Location.IsWithin source.tail target then
    .error .notEmpty
  else if source = target then
    .ok files
  else
    match files.get? target with
    | none => files.relocate source target
    | some old =>
      if node.isDirectory ∧ ¬ old.isDirectory then
        .error .notDirectory
      else if ¬ node.isDirectory ∧ old.isDirectory then
        .error .isDirectory
      else
        (files.remove target).bind
          (·.relocate source target)

/-
  Gives the entry that one path names the other path. A link
  at the end of a path is itself the entry.
-/
def rename
    (files : FileSystem)
    (source target : String) :
    Except FileError FileSystem := do
  let old ← files.locate .keep source
  let new ← files.locate .keep target
  match old, new with
  | .vacant _ _, _ => .error (.refused .noEntry)
  | .found location node, .found place _ =>
    (files.replace location node place).mapError .refused
  | .found location node, .vacant directory name =>
    (files.replace location node
      (name :: directory)).mapError .refused

------------------------------------------------------------
-- Removing
------------------------------------------------------------

/- Removes the file or link that a path names. -/
def removeFile
    (files : FileSystem)
    (path : String) : Except FileError FileSystem := do
  match ← files.locate .keep path with
  | .found _ .directory => .error (.refused .isDirectory)
  | .found location _ =>
    (files.remove location).mapError .refused
  | .vacant _ _ => .error (.refused .noEntry)

/- Removes the empty directory that a path names. -/
def removeDirectory
    (files : FileSystem)
    (path : String) : Except FileError FileSystem := do
  match ← files.locate .keep path with
  | .found [] _ => .error (.refused .busy)
  | .found location .directory =>
    (files.remove location).mapError .refused
  | .found _ _ => .error (.refused .notDirectory)
  | .vacant _ _ => .error (.refused .noEntry)

------------------------------------------------------------
-- Making
------------------------------------------------------------

/- Makes a new entry at a path. -/
def make
    (files : FileSystem)
    (path : String)
    (node : Node) : Except FileError FileSystem := do
  match ← files.locate .keep path with
  | .found _ _ => .error (.refused .exists)
  | .vacant directory name =>
    (files.put (name :: directory) node).mapError .refused

/- Makes a directory in an existing one. -/
def makeDirectory
    (files : FileSystem)
    (path : String) : Except FileError FileSystem :=
  files.make path .directory

/- Makes a link that leads to a text. -/
def makeLink
    (files : FileSystem)
    (path : String)
    (target : RawText) : Except FileError FileSystem :=
  files.make path (.link target)

/-
  Makes the first of a row of directories, each of which is
  the parent of the one before it. Where that fails for want
  of the parent, the others are made first. A directory that
  exists is as good as a new one.
-/
def makeChain
    (files : FileSystem) :
    List String → Progress
  | [] => ⟨files, none⟩
  | path :: parents =>
    match files.makeDirectory path with
    | .ok made => ⟨made, none⟩
    | .error (.refused .noEntry) =>
      let before := makeChain files parents
      match before.fault with
      | some _ => before
      | none =>
        match before.files.makeDirectory path with
        | .ok made => ⟨made, none⟩
        | .error fault =>
          if before.files.isDirectoryAt path then
            before
          else
            ⟨before.files, some fault⟩
    | .error fault =>
      if files.isDirectoryAt path then
        ⟨files, none⟩
      else
        ⟨files, some fault⟩

/- Makes a directory together with its missing parents. -/
def makeDirectories
    (files : FileSystem)
    (path : String) : Progress :=
  makeChain files (Path.upward path)

end FileSystem

end LineShell

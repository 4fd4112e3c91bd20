import LineShell.Command.Basic

/-
  This module defines the commands that copy, move, remove
  and make entries.

  Key definitions include:
    * `FileManagement.destination`
    * `FileManagement.cp`
    * `FileManagement.mv`
    * `FileManagement.rm`
    * `FileManagement.mkdir`
    * `FileManagement.rmdir`
-/

namespace LineShell

namespace FileManagement

------------------------------------------------------------
-- Copying and moving
------------------------------------------------------------

/-
  Where a source ends up: in the target under its own name
  if that is a directory, and at the target otherwise.
-/
def destination
    (files : FileSystem)
    (source target : String) : Except Fault String :=
  if files.isDirectoryAt target then
    match Path.fileName? source with
    | some name => .ok (Path.join target name)
    | none => .error (.noFileName source)
  else
    .ok target

/- Copies a file. -/
def cp : Command where
  signature :=
    { name := "cp"
      minArgs := 2
      maxArgs := some 2
      acceptsInput := false
      changesDirectory := false
      summary :=
        "copy a file (into a directory if the destination " ++
          "is one)"
      params := ["SourcePath", "DestinationPath"] }
  run call files :=
    let source := call.resolve (call.arg 0)
    Answer.looking files source (files.nodeAt source)
      fun node =>
        if node.isDirectory then
          Answer.fail files (.sourceIsDirectory source)
        else
          match
            destination files source
              (call.resolve (call.arg 1)) with
          | .error fault => Answer.fail files fault
          | .ok target =>
            if target = source then
              Answer.fail files
                (.sameFile (call.arg 0) (call.arg 1))
            else
              Answer.changing files target
                (files.copyFile source target)

/- Moves an entry. -/
def mv : Command where
  signature :=
    { name := "mv"
      minArgs := 2
      maxArgs := some 2
      acceptsInput := false
      changesDirectory := false
      summary := "move or rename a file or directory"
      params := ["SourcePath", "DestinationPath"] }
  run call files :=
    let source := call.resolve (call.arg 0)
    Answer.looking files source (files.linkNodeAt source)
      fun _ =>
        match
          destination files source
            (call.resolve (call.arg 1)) with
        | .error fault => Answer.fail files fault
        | .ok target =>
          if Path.isWithin source target ∧ target ≠ source then
            Answer.fail files (.intoItself (call.arg 0))
          else
            Answer.changing files target
              (files.rename source target)

------------------------------------------------------------
-- One path after the other
------------------------------------------------------------

/-
  Makes one change after the other, each at a path of its
  own. The first one that fails ends the row, and what was
  changed before it stays changed.
-/
def changeEach
    (change : FileSystem → String → Progress) :
    List String → FileSystem → Answer
  | [], files => Answer.plain files none
  | path :: paths, files =>
    let progress := change files path
    match progress.fault with
    | none => changeEach change paths progress.files
    | some cause =>
      Answer.fail progress.files (.atPath path cause)

/- The progress of an operation of one step. -/
def single
    (operation :
      FileSystem → String → Except FileError FileSystem)
    (files : FileSystem)
    (path : String) : Progress :=
  match operation files path with
  | .ok changed => ⟨changed, none⟩
  | .error cause => ⟨files, some cause⟩

/- A command that changes each of its paths. -/
def forEachPath
    (name summary param : String)
    (change : FileSystem → String → Progress) : Command where
  signature :=
    { name := name
      minArgs := 1
      maxArgs := none
      acceptsInput := false
      changesDirectory := false
      summary := summary
      params := [param] }
  run call files :=
    changeEach change (call.args.map call.resolve) files

/- Removes files. -/
def rm : Command :=
  forEachPath "rm" "remove files" "FilePath"
    (single FileSystem.removeFile)

/- Makes directories. -/
def mkdir : Command :=
  forEachPath "mkdir"
    "create directories, including missing parents"
    "DirectoryPath" FileSystem.makeDirectories

/- Removes empty directories. -/
def rmdir : Command :=
  forEachPath "rmdir" "remove empty directories"
    "DirectoryPath" (single FileSystem.removeDirectory)

end FileManagement

end LineShell

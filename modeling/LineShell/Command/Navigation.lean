import LineShell.Command.Basic

/-
  This module defines the commands that show and change the
  current directory.

  Key definitions include:
    * `Navigation.pwd`
    * `Navigation.cd`
    * `Navigation.ls`
    * `Navigation.listing`
-/

namespace LineShell

namespace Navigation

------------------------------------------------------------
-- Where a session stands
------------------------------------------------------------

/- Prints the current directory. -/
def pwd : Command where
  signature :=
    { name := "pwd"
      minArgs := 0
      maxArgs := some 0
      acceptsInput := false
      changesDirectory := false
      summary := "print the current directory"
      params := [] }
  run call files :=
    Answer.plain files
      (some (call.directories.current ++ "\n"))

/- Asks to go to a directory, or back to the first one. -/
def cd : Command where
  signature :=
    { name := "cd"
      minArgs := 0
      maxArgs := some 1
      acceptsInput := false
      changesDirectory := true
      summary :=
        "change the current directory (no argument: back " ++
          "to the start directory)"
      params := ["DirectoryPath"] }
  run call files :=
    let path :=
      call.resolve (call.args.headD call.directories.home)
    Answer.looking files path (files.nodeAt path) fun node =>
      if node.isDirectory then
        ⟨files, [path], .ok none⟩
      else
        Answer.fail files (.atPath path (.notADirectory path))

------------------------------------------------------------
-- Listings
------------------------------------------------------------

/- An entry as it is listed. A directory ends in a slash. -/
def listed :
    Name × Node → String
  | (name, node) =>
    if node.isDirectory then
      name.raw.shown ++ "/"
    else
      name.raw.shown

/-
  The entries of a directory, one a line, in the order of
  what is shown of them.
-/
def listing
    (entries : List (Name × Node)) : List String :=
  (entries.map listed).mergeSort fun first second =>
    decide (first ≤ second)

/- Lists a directory, or names what is none. -/
def ls : Command where
  signature :=
    { name := "ls"
      minArgs := 0
      maxArgs := some 1
      acceptsInput := false
      changesDirectory := false
      summary := "list directory contents"
      params := ["DirectoryPath"] }
  run call files :=
    let path :=
      match call.args with
      | [] => call.directories.current
      | raw :: _ => call.resolve raw
    Answer.looking files path (files.nodeAt path) fun node =>
      if node.isDirectory then
        Answer.looking files path (files.listDirectory path)
          fun entries =>
            match listing entries with
            | [] => Answer.plain files none
            | items =>
              Answer.plain files
                (some (String.join (items.map (· ++ "\n"))))
      else
        Answer.plain files (some (call.arg 0 ++ "\n"))

end Navigation

end LineShell

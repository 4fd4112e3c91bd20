import LineShell.Command.Basic
import LineShell.Paging

/-
  This module defines the commands that show texts.

  Key definitions include:
    * `Reading.readEach`
    * `Reading.showSource`
    * `Reading.showPages`
    * `Reading.cat`
    * `Reading.more`
-/

namespace LineShell

namespace Reading

------------------------------------------------------------
-- Sources of text
------------------------------------------------------------

/- The text of a file. Bytes that are no text are replaced. -/
def readText
    (files : FileSystem)
    (path : String) : Except Fault String :=
  match files.readFile path with
  | .ok bytes => .ok (Utf8.decodeLossy bytes)
  | .error cause => .error (.atPath path cause)

/- The texts of files, one after the other. -/
def readEach
    (files : FileSystem) :
    List String → Except Fault String
  | [] => .ok ""
  | path :: paths => do
    let text ← readText files path
    let others ← readEach files paths
    .ok (text ++ others)

/-
  The texts of the named files, or the input if none is
  named.
-/
def sourceText
    (command : String)
    (call : Call)
    (files : FileSystem) : Except Fault String :=
  match call.args, call.input with
  | [], some text => .ok text
  | [], none => .error (.nothingToShow command)
  | raws, _ => readEach files (raws.map call.resolve)

/- Answers with the text of the sources. -/
def showSource
    (command : String)
    (call : Call)
    (files : FileSystem) : Answer :=
  ⟨files, [], (sourceText command call files).map some⟩

/-
  Shows the text of the sources to a user page by page, given
  the replies of the user. The pages go to the terminal, and
  nothing is handed on.
-/
def showPages
    (command : String)
    (pageLines : Nat)
    (replies : List UInt8)
    (call : Call)
    (files : FileSystem) : Answer :=
  match sourceText command call files with
  | .error fault => Answer.fail files fault
  | .ok text =>
    if
        (Paging.page text (max pageLines 1)
          replies).unreadable then
      Answer.fail files
        (.failed
          (command ++ ": " ++
            Paging.Showing.unreadableMessage))
    else
      Answer.plain files none

------------------------------------------------------------
-- Commands
------------------------------------------------------------

/- Shows files, or hands its input on. -/
def cat : Command where
  signature :=
    { name := "cat"
      minArgs := 0
      maxArgs := none
      acceptsInput := true
      changesDirectory := false
      summary :=
        "concatenate files, or pass piped input through"
      params := ["FilePath"] }
  run := showSource "cat"

/-
  Shows a file or its input. Pages are for a user at a
  terminal, whose replies are given if there is one;
  everywhere else the text is shown as a whole.
-/
def more
    (pageLines : Nat)
    (replies : Option (List UInt8)) : Command where
  signature :=
    { name := "more"
      minArgs := 0
      maxArgs := some 1
      acceptsInput := true
      changesDirectory := false
      summary :=
        "show a file or piped input one page at a time"
      params := ["FilePath"] }
  run call files :=
    match replies, call.interactive with
    | some typed, true =>
      showPages "more" pageLines typed call files
    | _, _ => showSource "more" call files

end Reading

end LineShell

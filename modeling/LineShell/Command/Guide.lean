import LineShell.Command.Basic

/-
  This module defines the commands that explain commands,
  and the one that clears the screen.

  Key definitions include:
    * `Guide.describeParams`
    * `Guide.overview`
    * `Guide.args`
    * `Guide.help`
    * `Guide.clear`
-/

namespace LineShell

namespace Guide

/- What is known of a command, if it is in the catalogue. -/
def lookUp
    (call : Call)
    (name : String) : Except Fault Signature :=
  match call.describe? name with
  | some signature => .ok signature
  | none => .error (.noSuchCommand name)

/- Answers with what is said of the command of a name. -/
def explain
    (call : Call)
    (files : FileSystem)
    (name : String)
    (words : Signature → String) : Answer :=
  ⟨files, [], (lookUp call name).map (some ∘ words)⟩

------------------------------------------------------------
-- Arguments of one command
------------------------------------------------------------

/-
  The line for one argument of a command: its number, its
  name, and whether it repeats or may be left out.
-/
def describeParam
    (signature : Signature)
    (index : Nat)
    (param : String) : String :=
  "arg" ++ toString (index + 1) ++ ": " ++ param ++
    (if index + 1 = signature.params.length then
      signature.repetition
    else
      "") ++
    (if signature.minArgs ≤ index then
      " (optional)"
    else
      "") ++
    "\n"

/- A line for each argument of a command. -/
def describeParams
    (signature : Signature) : String :=
  if signature.params = [] then
    signature.name ++ " takes no arguments\n"
  else
    String.join
      (signature.params.mapIdx (describeParam signature))

/- Lists the arguments of a command. -/
def args : Command where
  signature :=
    { name := "args"
      minArgs := 1
      maxArgs := some 1
      acceptsInput := false
      changesDirectory := false
      summary := "list the arguments a command takes"
      params := ["CommandName"] }
  run call files :=
    explain call files (call.arg 0) describeParams

------------------------------------------------------------
-- All commands
------------------------------------------------------------

/- The word that ends a session, with what it does. -/
def exitRow : String × String :=
  ("exit", "leave the terminal")

/- A name and a summary in two columns. -/
def row
    (width : Nat)
    (entry : String × String) : String :=
  String.ofList (entry.1.toList.rightpad width ' ') ++
    "  " ++ entry.2 ++ "\n"

/- The rows of the overview, the one of `exit` at the end. -/
def rows
    (catalogue : List Signature) : List (String × String) :=
  catalogue.map (fun signature =>
    (signature.name, signature.summary)) ++ [exitRow]

/-
  A line for each command. The first column is as wide as
  the longest name has bytes.
-/
def overview
    (catalogue : List Signature) : String :=
  let entries := rows catalogue
  let width :=
    (entries.map (·.1.utf8ByteSize)).foldl max 0
  String.join (entries.map (row width))

/- How a command is used and what it does. -/
def describeUse
    (signature : Signature) : String :=
  "usage: " ++ signature.usage ++ "\n  " ++
    signature.summary ++ "\n"

/- Explains one command, or lists them all. -/
def help : Command where
  signature :=
    { name := "help"
      minArgs := 0
      maxArgs := some 1
      acceptsInput := false
      changesDirectory := false
      summary := "list commands, or show usage for one"
      params := ["CommandName"] }
  run call files :=
    match call.args with
    | [] =>
      Answer.plain files (some (overview call.catalogue))
    | name :: _ => explain call files name describeUse

------------------------------------------------------------
-- The screen
------------------------------------------------------------

/-
  The codes that erase a screen and put the cursor in its
  upper left corner.
-/
def clearSequence : String :=
  "\x1b[2J\x1b[H"

/- Clears the screen. -/
def clear : Command where
  signature :=
    { name := "clear"
      minArgs := 0
      maxArgs := some 0
      acceptsInput := false
      changesDirectory := false
      summary := "clear the screen"
      params := [] }
  run _ files := Answer.plain files (some clearSequence)

end Guide

end LineShell

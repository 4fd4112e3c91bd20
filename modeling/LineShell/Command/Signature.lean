/-
  This module describes commands as their users see them.

  Key definitions include:
    * `Signature`
    * `Signature.accepts`
    * `Signature.describeCount`
    * `Signature.usage`
-/

namespace LineShell

/-
  What is known of a command before it runs: its name, how
  many arguments it takes, whether it reads the text of the
  stage before it, whether it may change the directory, and
  the words that explain it. Without a greatest number of
  arguments it takes any number from the least one on.
-/
structure Signature where
  name : String
  minArgs : Nat
  maxArgs : Option Nat
  acceptsInput : Bool
  changesDirectory : Bool
  summary : String
  params : List String
deriving DecidableEq, Repr

namespace Signature

/- A command takes this number of arguments. -/
def accepts
    (signature : Signature)
    (count : Nat) : Bool :=
  signature.minArgs ≤ count &&
    match signature.maxArgs with
    | none => true
    | some greatest => count ≤ greatest

/- The number of arguments in words. -/
def countedArguments
    (count : Nat) : String :=
  toString count ++
    if count = 1 then " argument" else " arguments"

/- How many arguments a command takes, in words. -/
def describeCount
    (signature : Signature) : String :=
  match signature.maxArgs with
  | none => "at least " ++ countedArguments signature.minArgs
  | some greatest =>
    if signature.minArgs = greatest then
      "exactly " ++ countedArguments signature.minArgs
    else
      toString signature.minArgs ++ " to " ++
        toString greatest ++ " arguments"

/- The mark of a command that takes any number of arguments. -/
def repetition
    (signature : Signature) : String :=
  if signature.maxArgs = none then " ..." else ""

/- A command as it is typed, with names for its arguments. -/
def usage
    (signature : Signature) : String :=
  " ".intercalate (signature.name :: signature.params) ++
    signature.repetition

end Signature

end LineShell

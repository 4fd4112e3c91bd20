import LineShell.Text.Escaped

/-
  This module defines what the evaluation of a line results
  in: a status and, in most cases, a text.

  Key definitions include:
    * `Status`
    * `Status.exitCode`
    * `Outcome`
    * `Outcome.success`
    * `Outcome.failure`
    * `Outcome.json`
-/

namespace LineShell

------------------------------------------------------------
-- Statuses
------------------------------------------------------------

/- How the evaluation of a line went. -/
inductive Status where
  | success
  | genericError
  | commandNotFound
  | invalidArguments
  | syntaxError
  | ioError
deriving DecidableEq, Repr

namespace Status

/- Every status. -/
def all : List Status :=
  [success, genericError, commandNotFound,
    invalidArguments, syntaxError, ioError]

/- The name of a status. -/
def name :
    Status → String
  | success => "success"
  | genericError => "generic_error"
  | commandNotFound => "command_not_found"
  | invalidArguments => "invalid_arguments"
  | syntaxError => "syntax_error"
  | ioError => "io_error"

/- The status that has a name. -/
def ofName?
    (text : String) : Option Status :=
  all.find? (·.name = text)

/- The words that tell a user of a status. -/
def message :
    Status → String
  | success => "ok"
  | genericError => "error occurred"
  | commandNotFound => "command not found"
  | invalidArguments => "invalid number of arguments"
  | syntaxError => "input is not recognized"
  | ioError => "file I/O error"

/- The code with which a program ends after a status. -/
def exitCode :
    Status → Nat
  | success => 0
  | genericError => 1
  | commandNotFound => 127
  | invalidArguments => 2
  | syntaxError => 3
  | ioError => 4

end Status

------------------------------------------------------------
-- Outcomes
------------------------------------------------------------

/- A status together with the text that goes with it. -/
structure Outcome where
  status : Status
  output : Option String
deriving DecidableEq, Repr

namespace Outcome

/- A success with or without a text. -/
def success
    (output : Option String) : Outcome :=
  ⟨.success, output⟩

/- The text as a line: it ends in a newline. -/
def asLine
    (text : String) : String :=
  if text.toList.getLast? = some '\n' then
    text
  else
    text ++ "\n"

/- A failure with the line that explains it. -/
def failure
    (status : Status)
    (message : String) : Outcome :=
  ⟨status, some (asLine message)⟩

/- An outcome is a success. -/
def isSuccess
    (outcome : Outcome) : Bool :=
  outcome.status = .success

------------------------------------------------------------
-- As data
------------------------------------------------------------

/- How a character is written in a JSON string. -/
def jsonChar
    (c : Char) : String :=
  match c with
  | '\x22' => "\\\x22"
  | '\\' => "\\\\"
  | '\x08' => "\\b"
  | '\x0c' => "\\f"
  | '\n' => "\\n"
  | '\r' => "\\r"
  | '\t' => "\\t"
  | c =>
    if c.toNat < 0x20 then
      "\\u" ++ Text.hexPadded 4 c.toNat
    else
      String.singleton c

/- A text as a JSON string. -/
def jsonString
    (text : String) : String :=
  "\x22" ++ String.join (text.toList.map jsonChar) ++
    "\x22"

/- An outcome as a JSON object. -/
def json
    (outcome : Outcome) : String :=
  "\x7b" ++ jsonString "status" ++ ":" ++
    jsonString outcome.status.name ++ "," ++
    jsonString "output" ++ ":" ++
    (outcome.output.map jsonString).getD "null" ++ "\x7d"

------------------------------------------------------------
-- On two channels
------------------------------------------------------------

/- What is written to the two channels of a terminal. -/
structure Shown where
  out : String
  err : String
deriving DecidableEq, Repr

/-
  An outcome as a user sees it. A success shows its text;
  a failure is named and explained on the error channel.
-/
def report
    (outcome : Outcome) : Shown :=
  let text := outcome.output.getD ""
  if outcome.isSuccess then
    ⟨text, ""⟩
  else
    ⟨"", outcome.status.message ++ "\n" ++ text⟩

end Outcome

end LineShell

/-
  This module names the ways in which the system refuses a
  file operation, and the causes for which an operation on
  files may fail.

  Key definitions include:
    * `Errno`
    * `Errno.code`
    * `Errno.text`
    * `FileError`
    * `FileError.message`
-/

namespace LineShell

------------------------------------------------------------
-- Refusals of the system
------------------------------------------------------------

/-
  The refusals that the system knows. Those without a name
  of their own are told apart by their number.
-/
inductive Errno where
  | notPermitted
  | noEntry
  | inputOutput
  | accessDenied
  | busy
  | exists
  | notDirectory
  | isDirectory
  | invalid
  | noSpace
  | readOnly
  | nameTooLong
  | notEmpty
  | tooManyLinks
  | other (code : Nat)
deriving DecidableEq, Repr

namespace Errno

/- The number of a refusal. -/
def code :
    Errno → Nat
  | notPermitted => 1
  | noEntry => 2
  | inputOutput => 5
  | accessDenied => 13
  | busy => 16
  | .exists => 17
  | notDirectory => 20
  | isDirectory => 21
  | invalid => 22
  | noSpace => 28
  | readOnly => 30
  | nameTooLong => 36
  | notEmpty => 39
  | tooManyLinks => 40
  | other code => code

/- The refusals that have a name of their own. -/
def named : List Errno :=
  [notPermitted, noEntry, inputOutput, accessDenied, busy,
    .exists, notDirectory, isDirectory, invalid, noSpace,
    readOnly, nameTooLong, notEmpty, tooManyLinks]

/- The refusal that has a number. -/
def ofCode
    (n : Nat) : Errno :=
  (named.find? (·.code = n)).getD (other n)

/- The words for a refusal. -/
def text :
    Errno → String
  | notPermitted => "Operation not permitted"
  | noEntry => "No such file or directory"
  | inputOutput => "Input/output error"
  | accessDenied => "Permission denied"
  | busy => "Device or resource busy"
  | .exists => "File exists"
  | notDirectory => "Not a directory"
  | isDirectory => "Is a directory"
  | invalid => "Invalid argument"
  | noSpace => "No space left on device"
  | readOnly => "Read-only file system"
  | nameTooLong => "File name too long"
  | notEmpty => "Directory not empty"
  | tooManyLinks => "Too many levels of symbolic links"
  | other code => "Unknown error " ++ toString code

/- The words for a refusal, followed by its number. -/
def message
    (e : Errno) : String :=
  e.text ++ " (os error " ++ toString e.code ++ ")"

end Errno

------------------------------------------------------------
-- Causes of failure
------------------------------------------------------------

/-
  Why an operation on files fails. A cause that no operation
  of the system has is described by a text.
-/
inductive FileError where
  | refused (errno : Errno)
  | nulInPath
  | irregularSource
  | notADirectory (path : String)
  | described (text : String)
deriving DecidableEq, Repr

namespace FileError

/- The sentence that reports a cause. -/
def message :
    FileError → String
  | refused errno => errno.message
  | nulInPath =>
    "file name contained an unexpected NUL byte"
  | irregularSource =>
    "the source path is neither a regular file nor a " ++
      "symlink to a regular file"
  | notADirectory path => "not a directory: " ++ path
  | described text => text

end FileError

end LineShell

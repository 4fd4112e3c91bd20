import LineShell.Toml.Text

/-
  This module recognizes the dates and times of TOML. What
  they say is not kept, but each has to exist. Every reader
  here gives back what comes after a date or time.

  Key definitions include:
    * `Toml.daysInMonth`
    * `Toml.skipDate`
    * `Toml.skipTime`
    * `Toml.skipDateTime`
-/

namespace LineShell

namespace Toml

------------------------------------------------------------
-- Numbers of fixed width
------------------------------------------------------------

/- The value of a decimal digit. -/
def decimal?
    (c : Char) : Option Nat :=
  if c.isDigit then some (c.toNat - '0'.toNat) else none

/- A number of two digits between two bounds. -/
def readPair
    (least greatest : Nat) :
    List Char → Option (Nat × List Char)
  | a :: b :: rest => do
    let value := (← decimal? a) * 10 + (← decimal? b)
    if least ≤ value ∧ value ≤ greatest then
      some (value, rest)
    else
      none
  | _ => none

/- One particular character. -/
def skipMark
    (mark : Char) :
    List Char → Option (List Char)
  | c :: rest => if c = mark then some rest else none
  | [] => none

------------------------------------------------------------
-- Dates
------------------------------------------------------------

/- A year has a day more than others. -/
def isLeapYear
    (year : Nat) : Bool :=
  year % 4 = 0 && (year % 100 ≠ 0 || year % 400 = 0)

/- The number of days in a month. -/
def daysInMonth
    (year month : Nat) : Nat :=
  if month = 2 then
    if isLeapYear year then 29 else 28
  else if month ∈ [4, 6, 9, 11] then
    30
  else
    31

/- A date: year, month and day. -/
def skipDate
    (chars : List Char) : Option (List Char) := do
  let (century, rest) ← readPair 0 99 chars
  let (years, rest) ← readPair 0 99 rest
  let rest ← skipMark '-' rest
  let (month, rest) ← readPair 1 12 rest
  let rest ← skipMark '-' rest
  let year := century * 100 + years
  let (_, rest) ← readPair 1 (daysInMonth year month) rest
  some rest

------------------------------------------------------------
-- Times
------------------------------------------------------------

/- The fraction of a second, if there is one. -/
def skipSecondFraction :
    List Char → Option (List Char)
  | '.' :: c :: rest =>
    if c.isDigit then
      some (rest.dropWhile Char.isDigit)
    else
      none
  | ['.'] => none
  | chars => some chars

/- A time: hour, minute and second. -/
def skipTime
    (chars : List Char) : Option (List Char) := do
  let (_, rest) ← readPair 0 23 chars
  let rest ← skipMark ':' rest
  let (_, rest) ← readPair 0 59 rest
  let rest ← skipMark ':' rest
  let (_, rest) ← readPair 0 60 rest
  skipSecondFraction rest

/- The difference to the universal time. -/
def skipOffset :
    List Char → Option (List Char)
  | c :: rest =>
    if c = 'Z' ∨ c = 'z' then
      some rest
    else if c = '+' ∨ c = '-' then do
      let (_, rest) ← readPair 0 23 rest
      let rest ← skipMark ':' rest
      let (_, rest) ← readPair 0 59 rest
      some rest
    else
      none
  | [] => none

------------------------------------------------------------
-- Both
------------------------------------------------------------

/- The time after a date, with its offset if it has one. -/
def skipTimeOfDay :
    List Char → Option (List Char)
  | c :: rest =>
    if c = 'T' ∨ c = 't' ∨ c = ' ' then do
      let rest ← skipTime rest
      some ((skipOffset rest).getD rest)
    else
      none
  | [] => none

/- A date, a time, or both. -/
def skipDateTime
    (chars : List Char) : Option (List Char) :=
  match skipDate chars with
  | some rest => some ((skipTimeOfDay rest).getD rest)
  | none => skipTime chars

end Toml

end LineShell

import LineShell.Command.Basic

/-
  This module defines the command that shows the date, and
  the patterns that say how it is written.

  Key definitions include:
    * `DatePattern.Item`
    * `DatePattern.items?`
    * `DatePattern.render?`
    * `Clock`
    * `Date.date`

  What the fields of a pattern show is left to a clock.
-/

namespace LineShell

------------------------------------------------------------
-- Patterns
------------------------------------------------------------

namespace DatePattern

/-
  A part of a pattern: a character that stands for itself,
  or a field of the date. A field is known by what follows
  the percent sign in the pattern.
-/
inductive Item where
  | literal (c : Char)
  | field (code : List Char)
deriving DecidableEq, Repr

/- The fields of one character that are numbers. -/
def numberFields : List Char :=
  "CGHIMSUVWYdefgjklmqsuwy".toList

/- The fields of one character that are words. -/
def wordFields : List Char :=
  "ABDFPRTXZabchprvxz+".toList

/- The marks that say how a number is filled up. -/
def paddingMarks : List Char :=
  "-0_".toList

/- The numbers of digits that a fraction may have. -/
def fractionDigits : List Char :=
  "369".toList

/- Puts a part in front of others. -/
def withItem
    (item : Item)
    (others : Option (List Item)) : Option (List Item) :=
  others.map (item :: ·)

/- Puts a field in front of others, if it is one. -/
def withField
    (isField : Bool)
    (code : List Char)
    (others : Option (List Item)) : Option (List Item) :=
  if isField then withItem (.field code) others else none

/- The parts of a pattern, if all of them have a meaning. -/
def items? :
    List Char → Option (List Item)
  | [] => some []
  | '%' :: '%' :: rest =>
    withItem (.literal '%') (items? rest)
  | '%' :: 'n' :: rest =>
    withItem (.literal '\n') (items? rest)
  | '%' :: 't' :: rest =>
    withItem (.literal '\t') (items? rest)
  | '%' :: '.' :: 'f' :: rest =>
    withItem (.field ['.', 'f']) (items? rest)
  | '%' :: '.' :: digit :: 'f' :: rest =>
    withField (fractionDigits.contains digit)
      ['.', digit, 'f'] (items? rest)
  | '%' :: ':' :: 'z' :: rest =>
    withItem (.field [':', 'z']) (items? rest)
  | '%' :: ':' :: ':' :: 'z' :: rest =>
    withItem (.field [':', ':', 'z']) (items? rest)
  | '%' :: ':' :: ':' :: ':' :: 'z' :: rest =>
    withItem (.field [':', ':', ':', 'z']) (items? rest)
  | '%' :: first :: second :: rest =>
    if paddingMarks.contains first then
      withField (numberFields.contains second)
        [first, second] (items? rest)
    else if fractionDigits.contains first then
      withField (second = 'f') [first, second] (items? rest)
    else
      withField
        (numberFields.contains first ||
          wordFields.contains first)
        [first] (items? (second :: rest))
  | ['%', last] =>
    withField
      (numberFields.contains last || wordFields.contains last)
      [last] (some [])
  | ['%'] => none
  | c :: rest => withItem (.literal c) (items? rest)

end DatePattern

------------------------------------------------------------
-- Clocks
------------------------------------------------------------

/- What each field of a date shows at some moment. -/
abbrev Clock :=
  List Char → String

namespace Clock

/-
  The clock that has not been set: it shows each field as it
  is written in the pattern.
-/
def unset : Clock :=
  fun code => String.ofList ('%' :: code)

end Clock

namespace DatePattern

/- A part of a pattern as a clock shows it. -/
def Item.render
    (clock : Clock) :
    Item → String
  | literal c => String.singleton c
  | field code => clock code

/- The date that a clock shows in a pattern. -/
def render?
    (clock : Clock)
    (pattern : String) : Option String :=
  (items? pattern.toList).map fun items =>
    String.join (items.map (Item.render clock))

end DatePattern

------------------------------------------------------------
-- The command
------------------------------------------------------------

namespace Date

/- Shows the date in a pattern. -/
def date
    (clock : Clock)
    (pattern : String) : Command where
  signature :=
    { name := "date"
      minArgs := 0
      maxArgs := some 0
      acceptsInput := false
      changesDirectory := false
      summary := "print the current date and time"
      params := [] }
  run _ files :=
    match DatePattern.render? clock pattern with
    | some text => Answer.plain files (some (text ++ "\n"))
    | none => Answer.fail files (.invalidFormat pattern)

end Date

end LineShell

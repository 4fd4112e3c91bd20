import LineShell.Toml.Text

/-
  This module reads the numbers of TOML.

  Key definitions include:
    * `Toml.readDigits`
    * `Toml.readInteger`
    * `Toml.skipFraction`
-/

namespace LineShell

namespace Toml

------------------------------------------------------------
-- Digits
------------------------------------------------------------

/- The value of a digit in a base of at most sixteen. -/
def digit?
    (base : Nat)
    (c : Char) : Option Nat :=
  (hexDigit? c).filter (· < base)

/-
  The digits after a first one. An underscore may stand
  between two digits.
-/
def moreDigits
    (base : Nat) :
    List Char → List Nat × List Char
  | '_' :: c :: rest =>
    match digit? base c with
    | some digit =>
      let (digits, others) := moreDigits base rest
      (digit :: digits, others)
    | none => ([], '_' :: c :: rest)
  | c :: rest =>
    match digit? base c with
    | some digit =>
      let (digits, others) := moreDigits base rest
      (digit :: digits, others)
    | none => ([], c :: rest)
  | [] => ([], [])

/- At least one digit. -/
def readDigits
    (base : Nat) :
    List Char → Option (List Nat × List Char)
  | [] => none
  | c :: rest =>
    (digit? base c).map fun digit =>
      let (digits, others) := moreDigits base rest
      (digit :: digits, others)

/- The number that digits write. -/
def numberOf
    (base : Nat)
    (digits : List Nat) : Nat :=
  digits.foldl (fun number digit => number * base + digit) 0

/-
  Decimal digits without a zero in front, unless the zero is
  all there is.
-/
def readDecimal :
    List Char → Option (List Nat × List Char)
  | '0' :: rest => some ([0], rest)
  | chars => readDigits 10 chars

/- A sign, if there is one, and whether it is a minus. -/
def readSign :
    List Char → Bool × List Char
  | '+' :: rest => (false, rest)
  | '-' :: rest => (true, rest)
  | chars => (false, chars)

------------------------------------------------------------
-- Integers
------------------------------------------------------------

/- The integers of sixty-four bits. -/
def isInRange
    (value : Int) : Bool :=
  -0x8000000000000000 ≤ value && value < 0x8000000000000000

/- An integer of digits in a base, if it is not too large. -/
def readInBase
    (base : Nat)
    (chars : List Char) : Option (Int × List Char) := do
  let (digits, rest) ← readDigits base chars
  let value : Int := numberOf base digits
  if isInRange value then some (value, rest) else none

/- An integer. -/
def readInteger
    (chars : List Char) : Option (Int × List Char) :=
  match chars with
  | '0' :: 'x' :: rest => readInBase 16 rest
  | '0' :: 'o' :: rest => readInBase 8 rest
  | '0' :: 'b' :: rest => readInBase 2 rest
  | _ => do
    let (negative, start) := readSign chars
    let (digits, rest) ← readDecimal start
    let size : Int := numberOf 10 digits
    let value := if negative then -size else size
    if isInRange value then some (value, rest) else none

------------------------------------------------------------
-- Fractions
------------------------------------------------------------

/- The digits after a point. -/
def readPlaces :
    List Char → Option (List Nat × List Char)
  | '.' :: rest => readDigits 10 rest
  | _ => none

/- A power of ten, with its sign. -/
def readExponent :
    List Char → Option (Int × List Char)
  | c :: rest => do
    if c ≠ 'e' ∧ c ≠ 'E' then
      none
    let (negative, start) := readSign rest
    let (digits, others) ← readDigits 10 start
    let size : Int := numberOf 10 digits
    some (if negative then -size else size, others)
  | [] => none

/-
  The least integer that is too large for a fraction of
  sixty-four bits.
-/
def fractionLimit : Nat :=
  Nat.pow 2 1024 - Nat.pow 2 970

/-
  A decimal fraction, given by its digits and the power of
  ten of the last one, stays below the limit.
-/
def isFinite
    (digits : List Nat)
    (power : Int) : Bool :=
  let significant := digits.dropWhile (· = 0)
  let places : Int := significant.length
  if significant = [] then
    true
  else if places + power > 400 then
    false
  else if power ≥ 0 then
    numberOf 10 significant * Nat.pow 10 power.toNat <
      fractionLimit
  else if places + power < 0 then
    true
  else
    numberOf 10 significant <
      fractionLimit * Nat.pow 10 (-power).toNat

/-
  A fraction: digits with a point, a power of ten, or both.
  Only negative ones may be too large.
-/
def skipDecimalFraction
    (chars : List Char) : Option (List Char) := do
  let (negative, start) := readSign chars
  let (whole, rest) ← readDecimal start
  let (places, exponent, rest) ←
    match readExponent rest with
    | some (exponent, rest) => some ([], exponent, rest)
    | none => do
      let (places, rest) ← readPlaces rest
      match readExponent rest with
      | some (exponent, rest) => some (places, exponent, rest)
      | none => some (places, 0, rest)
  let power : Int := exponent - places.length
  if negative ∨ isFinite (whole ++ places) power then
    some rest
  else
    none

/- The fractions that are written as words. -/
def skipNamedFraction
    (chars : List Char) : Option (List Char) :=
  match (readSign chars).2 with
  | 'i' :: 'n' :: 'f' :: rest => some rest
  | 'n' :: 'a' :: 'n' :: rest => some rest
  | _ => none

/- A fraction. -/
def skipFraction
    (chars : List Char) : Option (List Char) :=
  (skipDecimalFraction chars).or (skipNamedFraction chars)

end Toml

end LineShell

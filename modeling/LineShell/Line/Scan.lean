import LineShell.Text.Offset

/-
  This module reads one line from left to right, collects
  its words, and finds the first operator that stands
  outside quotes.

  Key definitions include:
    * `Operator`
    * `Boundary`
    * `Scan`
    * `UnclosedQuote`
    * `Scan.ofLine`

  A quoted part belongs to the word that it touches on its
  left, a closing quote ends the word, and inside quotes
  nothing but the quote itself has a meaning.
-/

namespace LineShell

------------------------------------------------------------
-- Operators and boundaries
------------------------------------------------------------

/- What may end the words of a line. -/
inductive Operator where
  | pipe
  | overwrite
  | append
deriving DecidableEq, Repr

namespace Operator

/- How an operator is written in a line. -/
def text :
    Operator → String
  | pipe => "|"
  | overwrite => ">"
  | append => ">>"

/- The number of bytes that an operator takes in a line. -/
def width :
    Operator → Nat
  | pipe => 1
  | overwrite => 1
  | append => 2

end Operator

/-
  The first operator of a line, with the number of bytes
  that stand before it.
-/
structure Boundary where
  operator : Operator
  position : Nat
deriving DecidableEq, Repr

/-
  The words that are complete before the boundary. A word
  that touches the boundary is not among them.
-/
structure Scan where
  words : List String
  boundary : Option Boundary
deriving DecidableEq, Repr

/-
  A quote that is opened and not closed, with the number of
  bytes that stand before it.
-/
structure UnclosedQuote where
  quote : Char
  position : Nat
deriving DecidableEq, Repr

namespace UnclosedQuote

/- The sentence that reports an unclosed quote. -/
def message
    (fault : UnclosedQuote) : String :=
  "unterminated " ++ String.singleton fault.quote ++
    " quote opened at offset " ++ toString fault.position

end UnclosedQuote

------------------------------------------------------------
-- Quotes
------------------------------------------------------------

/- The single quote. -/
def singleQuote : Char := '\x27'

/- The double quote. -/
def doubleQuote : Char := '\x22'

/- The characters that open a quoted part. -/
def isQuote
    (c : Char) : Bool :=
  c = singleQuote || c = doubleQuote

------------------------------------------------------------
-- Scanning
------------------------------------------------------------

namespace Scan

/-
  Where a reader stands: outside quotes with the characters
  of an unfinished word, or inside a quoted part, with the
  quote, its position, and the characters of the word so
  far. The characters of a word are held last one first.
-/
inductive Place where
  | outside (word : List Char)
  | inside (opened : UnclosedQuote) (word : List Char)
deriving DecidableEq, Repr

/- The word whose characters were held last one first. -/
def wordOf
    (word : List Char) : String :=
  String.ofList word.reverse

/-
  The words that a space or the end of the line completes.
  Without characters there is no word.
-/
def completed :
    List Char → List String
  | [] => []
  | c :: word => [wordOf (c :: word)]

/- Puts words in front of those of a scan. -/
def prepend
    (words : List String)
    (scan : Scan) : Scan :=
  { scan with words := words ++ scan.words }

/-
  Reads the rest of a line from a place, at a position given
  as the number of bytes already read.
-/
def read
    (place : Place)
    (position : Nat) :
    List Char → Except UnclosedQuote Scan
  | [] =>
    match place with
    | .outside word => .ok ⟨completed word, none⟩
    | .inside opened _ => .error opened
  | c :: rest =>
    match place with
    | .outside word =>
      if isQuote c then
        Scan.read (.inside ⟨c, position⟩ word)
          (position + c.utf8Size) rest
      else if c = ' ' then
        (Scan.read (.outside []) (position + c.utf8Size)
          rest).map (prepend (completed word))
      else if c = '|' then
        .ok ⟨[], some ⟨.pipe, position⟩⟩
      else if c = '>' then
        match rest with
        | '>' :: _ => .ok ⟨[], some ⟨.append, position⟩⟩
        | _ => .ok ⟨[], some ⟨.overwrite, position⟩⟩
      else
        Scan.read (.outside (c :: word))
          (position + c.utf8Size) rest
    | .inside opened word =>
      if c = opened.quote then
        (Scan.read (.outside []) (position + c.utf8Size)
          rest).map (prepend [wordOf word])
      else
        Scan.read (.inside opened (c :: word))
          (position + c.utf8Size) rest

/- The words of a line and its first operator. -/
def ofLine
    (line : String) : Except UnclosedQuote Scan :=
  Scan.read (.outside []) 0 line.toList

------------------------------------------------------------
-- Where the boundary stands
------------------------------------------------------------

/-
  A boundary is the place of its operator in the line: the
  text before it is as long as its position says.
-/
theorem read_boundary
    {place : Place}
    {position : Nat}
    {chars : List Char}
    {scan : Scan}
    {boundary : Boundary}
    (hRead : Scan.read place position chars = .ok scan)
    (hBoundary : scan.boundary = some boundary) :
    ∃ before after,
      chars =
        before ++ boundary.operator.text.toList ++ after ∧
      boundary.position =
        position + Text.byteLength before := by
  induction chars generalizing place position scan with
  | nil =>
    cases place <;> simp [read] at hRead
    subst hRead
    simp at hBoundary
  | cons c rest ih =>
    have further : ∀ {place : Place} {next : Nat} {scan : Scan},
        Scan.read place next rest = .ok scan →
        scan.boundary = some boundary →
        next = position + c.utf8Size →
        ∃ before after,
          c :: rest =
            before ++ boundary.operator.text.toList ++
              after ∧
          boundary.position =
            position + Text.byteLength before := by
      intro place next scan hNext hSame hPosition
      rcases ih hNext hSame with ⟨before, after, rfl, hEq⟩
      refine ⟨c :: before, after, rfl, ?_⟩
      rw [hEq, hPosition, Text.byteLength_cons]
      omega
    have prepended : ∀ {words : List String} {place : Place}
        {next : Nat},
        (Scan.read place next rest).map (prepend words) =
            .ok scan →
        ∃ inner,
          Scan.read place next rest = .ok inner ∧
            inner.boundary = some boundary := by
      intro words place next hMap
      cases hInner : Scan.read place next rest with
      | error fault => simp [hInner, Except.map] at hMap
      | ok inner =>
        refine ⟨inner, rfl, ?_⟩
        simp [hInner, Except.map] at hMap
        subst hMap
        exact hBoundary
    have stopped :
        ∀ (operator : Operator) (after : List Char),
        c :: rest = operator.text.toList ++ after →
        scan = ⟨[], some ⟨operator, position⟩⟩ →
        ∃ before after,
          c :: rest =
            before ++ boundary.operator.text.toList ++
              after ∧
          boundary.position =
            position + Text.byteLength before := by
      intro operator after hText hScan
      subst hScan
      simp only [Option.some.injEq] at hBoundary
      subst hBoundary
      exact ⟨[], after, hText, rfl⟩
    cases place with
    | outside word =>
      simp only [read] at hRead
      split at hRead
      case isTrue hQuote =>
        exact further hRead hBoundary rfl
      split at hRead
      case isTrue hSpace =>
        rcases prepended hRead with ⟨inner, hInner, hSame⟩
        exact further hInner hSame rfl
      split at hRead
      case isTrue hPipe =>
        subst hPipe
        exact stopped .pipe rest rfl
          (Except.ok.inj hRead).symm
      split at hRead
      case isTrue hAngle =>
        subst hAngle
        split at hRead
        · rename_i after
          exact stopped .append after rfl
            (Except.ok.inj hRead).symm
        · exact stopped .overwrite rest rfl
            (Except.ok.inj hRead).symm
      exact further hRead hBoundary rfl
    | inside opened word =>
      simp only [read] at hRead
      split at hRead
      · rcases prepended hRead with ⟨inner, hInner, hSame⟩
        exact further hInner hSame rfl
      · exact further hRead hBoundary rfl
end Scan

end LineShell

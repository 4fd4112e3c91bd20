import LineShell.Proofs.Line.Plan
import LineShell.Proofs.Text.Trimmed

/-
  The sides of a directive. A line that an operator divides
  is its left side, the operator and the rest, of which only
  blanks at the ends are lost. The left side is not divided
  again, both sides are shorter than the line, and only the
  choice between known and unknown names is up to a
  registry.

  Key definitions include:
    * `Directive.IsWhole`
    * `Directive.withRegistered`
    * `IsPipeOf`
    * `IsRedirectOf`
    * `IsPartOf`

  Correctness is proven by:
    * `Directive.ofLine_withRegistered`
    * `IsPartOf.wellFounded`
    * `Directive.ofLine_keeps_line`
-/

------------------------------------------------------------
-- Lines and their sides
------------------------------------------------------------

namespace LineShell

namespace Directive

/- A directive of words alone: it has no sides. -/
def IsWhole :
    Directive → Prop
  | pipeline _ _ => False
  | redirect _ _ _ => False
  | _ => True

/-
  The directive that has the same words or sides where other
  names are registered.
-/
def withRegistered
    (registered : String → Bool) :
    Directive → Directive
  | simple name args =>
    if registered name then
      simple name args
    else
      unregistered name args
  | unregistered name args =>
    if registered name then
      simple name args
    else
      unregistered name args
  | directive => directive

/- Whatever is registered, a text has a directive of words. -/
def ReadsWhole
    (text : String) : Prop :=
  ∀ registered,
    ∃ directive,
      ofLine registered text = .ok directive ∧
        directive.IsWhole

end Directive

/-
  A line is a left side, a pipe and a rest, and the right
  side is this rest without the blanks at its start.
-/
structure IsPipeOf
    (line left right : String) : Prop where
  line_eq :
    ∃ rest,
      line = left ++ "|" ++ rest ∧
        Text.IsTrimmedStart rest right
  left_whole : Directive.ReadsWhole left
  left_shorter : left.length < line.length
  right_shorter : right.length < line.length

/-
  A line is a left side, one angle or two, and a rest, and
  the target is this rest without the blanks at its ends.
  What comes after a single angle is not another one.
-/
structure IsRedirectOf
    (line : String)
    (mode : WriteMode)
    (left target : String) : Prop where
  line_eq :
    ∃ rest,
      Text.IsTrimmed rest target ∧
        match mode with
        | .truncate =>
          line = left ++ ">" ++ rest ∧
            rest.toList.head? ≠ some '>'
        | .append => line = left ++ ">>" ++ rest
  left_whole : Directive.ReadsWhole left
  left_shorter : left.length < line.length

/- A text is read on its own when a line is evaluated. -/
inductive IsPartOf :
    String → String → Prop
  | pipeLeft
      {registered : String → Bool}
      {line left right : String}
      (hLine :
        Directive.ofLine registered line =
          .ok (.pipeline left right)) :
      IsPartOf left line
  | pipeRight
      {registered : String → Bool}
      {line left right : String}
      (hLine :
        Directive.ofLine registered line =
          .ok (.pipeline left right)) :
      IsPartOf right line
  | redirected
      {registered : String → Bool}
      {line left target : String}
      {mode : WriteMode}
      (hLine :
        Directive.ofLine registered line =
          .ok (.redirect mode left target)) :
      IsPartOf left line

end LineShell

------------------------------------------------------------
-- Lines without sides
------------------------------------------------------------

namespace LineShell

namespace Directive

variable
    {line : String}
    (registered : String → Bool)

theorem isWhole_ofWords
    (words : List String) :
    (ofWords registered words).IsWhole := by
  rcases ofWords_cases registered words with
    ⟨_, hNone⟩ | ⟨_, _, _, hSome | hSome⟩
  · rw [hNone]
    trivial
  · rw [hSome]
    trivial
  · rw [hSome]
    trivial

theorem ofWords_withRegistered
    (other : String → Bool)
    (words : List String) :
    (ofWords registered words).withRegistered other =
      ofWords other words := by
  cases words with
  | nil => rfl
  | cons name args =>
      by_cases hName : registered name = true
      · simp [ofWords, hName, withRegistered]
      · simp [ofWords, hName, withRegistered]

/- A closed text that no operator divides is a row of words. -/
theorem ofLine_of_not_divided
    (hWhole : ¬ IsDividedText line.toList) :
    ofLine registered line =
      (Scan.ofLine line).map fun scan =>
        ofWords registered scan.words := by
  cases hScan : Scan.ofLine line with
  | error fault => simp [ofLine, hScan, Except.map]
  | ok scan =>
      have hNone := boundary_eq_none hWhole hScan
      simp [ofLine, hScan, Except.map, hNone]

/- A directive with sides is that of a divided line. -/
theorem isDividedText_of_not_isWhole
    {directive : Directive}
    (hLine : ofLine registered line = .ok directive)
    (hSides : ¬ directive.IsWhole) :
    IsDividedText line.toList := by
  apply Classical.byContradiction
  intro hWhole
  rw [ofLine_of_not_divided registered hWhole] at hLine
  cases hScan : Scan.ofLine line with
  | error fault =>
      rw [hScan] at hLine
      cases hLine
  | ok scan =>
      rw [hScan] at hLine
      obtain rfl := Except.ok.inj hLine
      exact hSides (isWhole_ofWords registered scan.words)

/- A clean text is a row of words. -/
theorem readsWhole_of_isCleanText
    (hClean : IsCleanText line.toList) :
    ReadsWhole line := by
  intro registered
  rcases Scan.ofLine_of_isCleanText hClean with
    ⟨words, hScan⟩
  refine
    ⟨ofWords registered words, ?_,
      isWhole_ofWords registered words⟩
  simp [ofLine, hScan, Except.map]

/-
  Another registry makes no other directive of a line, apart
  from what it says of the name.
-/
theorem ofLine_withRegistered
    (other : String → Bool)
    (line : String) :
    ofLine other line =
      (ofLine registered line).map
        (withRegistered other) := by
  by_cases hText : IsDividedText line.toList
  · rcases exists_dividedAt hText with
      ⟨front, rest, operator, hDivided⟩
    rw [ofLine_of_divided hDivided,
      ofLine_of_divided hDivided]
    cases operator <;> rfl
  · rw [ofLine_of_not_divided other hText,
      ofLine_of_not_divided registered hText]
    cases Scan.ofLine line with
    | error fault => rfl
    | ok scan =>
        simp [Except.map, ofWords_withRegistered]

end Directive

end LineShell

------------------------------------------------------------
-- Lines with sides
------------------------------------------------------------

namespace LineShell

namespace DividedAt

variable
    {line front rest : String}
    {operator : Operator}

theorem length_front_lt
    (hDivided : DividedAt line front rest operator) :
    front.length < line.length := by
  have hText : 0 < operator.text.length := by
    cases operator <;> decide
  rw [hDivided.line_eq, String.length_append,
    String.length_append]
  omega

theorem isPipeOf
    (hDivided : DividedAt line front rest .pipe) :
    IsPipeOf line front (Text.trimStart rest) := by
  constructor
  · refine
      ⟨rest, ?_, Text.isTrimmedStart_trimStart rest⟩
    rw [String.append_assoc]
    exact hDivided.line_eq
  · exact Directive.readsWhole_of_isCleanText
      hDivided.front_clean
  · exact hDivided.length_front_lt
  · exact Nat.lt_of_le_of_lt
      (Directive.length_trimStart_le rest)
      hDivided.length_rest_lt

theorem isRedirectOf
    {mode : WriteMode}
    (hDivided :
      DividedAt line front rest (Plan.redirection mode)) :
    IsRedirectOf line mode front (Text.trim rest) := by
  constructor
  · refine ⟨rest, Text.isTrimmed_trim rest, ?_⟩
    have hLine := hDivided.line_eq
    rw [← String.append_assoc] at hLine
    cases mode with
    | truncate => exact ⟨hLine, hDivided.single rfl⟩
    | append => exact hLine
  · exact Directive.readsWhole_of_isCleanText
      hDivided.front_clean
  · exact hDivided.length_front_lt

end DividedAt

namespace Directive

variable
    {registered : String → Bool}
    {line left : String}

theorem isPipeOf_of_ofLine
    {right : String}
    (hLine :
      ofLine registered line =
        .ok (.pipeline left right)) :
    IsPipeOf line left right := by
  have hText :=
    isDividedText_of_not_isWhole registered hLine id
  rcases exists_dividedAt hText with
    ⟨front, rest, operator, hDivided⟩
  rw [ofLine_of_divided hDivided] at hLine
  cases operator with
  | pipe =>
      cases hLine
      exact hDivided.isPipeOf
  | overwrite => cases hLine
  | append => cases hLine

theorem isRedirectOf_of_ofLine
    {mode : WriteMode}
    {target : String}
    (hLine :
      ofLine registered line =
        .ok (.redirect mode left target)) :
    IsRedirectOf line mode left target := by
  have hText :=
    isDividedText_of_not_isWhole registered hLine id
  rcases exists_dividedAt hText with
    ⟨front, rest, operator, hDivided⟩
  rw [ofLine_of_divided hDivided] at hLine
  cases operator with
  | pipe => cases hLine
  | overwrite =>
      cases hLine
      exact DividedAt.isRedirectOf hDivided
  | append =>
      cases hLine
      exact DividedAt.isRedirectOf hDivided

end Directive

namespace IsPartOf

/- What is read on its own is shorter than the line. -/
theorem length_lt
    {part line : String}
    (hPart : IsPartOf part line) :
    part.length < line.length := by
  cases hPart with
  | pipeLeft hLine =>
      exact (Directive.isPipeOf_of_ofLine hLine).left_shorter
  | pipeRight hLine =>
      exact (Directive.isPipeOf_of_ofLine hLine).right_shorter
  | redirected hLine =>
      exact
        (Directive.isRedirectOf_of_ofLine hLine).left_shorter

/- There is an end to reading parts of parts of a line. -/
theorem wellFounded :
    WellFounded IsPartOf := by
  apply Subrelation.wf _
    (measure String.length).wf
  intro part line hPart
  exact hPart.length_lt

end IsPartOf

namespace Directive

/-
  The directive of a line loses nothing of it but blanks
  around its sides, and invents nothing. Its left side has
  no sides of its own, there is an end to the reading of
  sides, and the sides are the same under every registry.
-/
theorem ofLine_keeps_line
    (registered : String → Bool)
    (line : String) :
    (∀ left right,
      ofLine registered line = .ok (.pipeline left right) →
        IsPipeOf line left right) ∧
      (∀ mode left target,
        ofLine registered line =
            .ok (.redirect mode left target) →
          IsRedirectOf line mode left target) ∧
      Acc IsPartOf line ∧
      ∀ other,
        ofLine other line =
          (ofLine registered line).map
            (withRegistered other) := by
  refine ⟨?_, ?_, IsPartOf.wellFounded.apply line, ?_⟩
  · intro left right hLine
    exact isPipeOf_of_ofLine hLine
  · intro mode left target hLine
    exact isRedirectOf_of_ofLine hLine
  · intro other
    exact ofLine_withRegistered registered other line

end Directive

end LineShell

import LineShell.Line.Scan
import LineShell.Text.Blank

/-
  This module turns one line into the directive that it
  stands for. Only the first operator of a line counts: the
  texts on its two sides are kept as they are written and
  read again when their turn comes.

  Key definitions include:
    * `WriteMode`
    * `Directive`
    * `Directive.Kind`
    * `Directive.ofLine`

  The lemmas at the end say that the sides of a directive
  are shorter than its line.
-/

namespace LineShell

------------------------------------------------------------
-- Directives
------------------------------------------------------------

/- How a redirect treats what its target already holds. -/
inductive WriteMode where
  | truncate
  | append
deriving DecidableEq, Repr

/-
  What a line asks for. A command is registered or not at
  the time when its line is read.
-/
inductive Directive where
  | empty
  | simple (name : String) (args : List String)
  | unregistered (name : String) (args : List String)
  | pipeline (left right : String)
  | redirect
      (mode : WriteMode)
      (left target : String)
deriving DecidableEq, Repr

namespace Directive

/- The sorts of directive. -/
inductive Kind where
  | empty
  | simple
  | unregistered
  | pipeline
  | redirect (mode : WriteMode)
deriving DecidableEq, Repr

/- The sort of a directive. -/
def kind :
    Directive → Kind
  | empty => .empty
  | simple _ _ => .simple
  | unregistered _ _ => .unregistered
  | pipeline _ _ => .pipeline
  | redirect mode _ _ => .redirect mode

namespace Kind

/- The name of a sort of directive. -/
def name :
    Kind → String
  | empty => "empty"
  | simple => "simple"
  | unregistered => "unregistered"
  | pipeline => "pipeline"
  | redirect .truncate => "redirect"
  | redirect .append => "redirect-append"

end Kind

------------------------------------------------------------
-- Reading a line
------------------------------------------------------------

/- The directive of a line whose words are all there is. -/
def ofWords
    (registered : String → Bool) :
    List String → Directive
  | [] => empty
  | name :: args =>
    if registered name then
      simple name args
    else
      unregistered name args

/-
  The directive of a line that an operator divides. The
  right side of a pipe loses the blanks at its start, the
  target of a redirect those at both ends.
-/
def atBoundary
    (line : String)
    (boundary : Boundary) : Directive :=
  let before :=
    String.ofList
      (Text.takeBytes boundary.position line.toList)
  let after :=
    String.ofList
      (Text.dropBytes
        (boundary.position + boundary.operator.width)
        line.toList)
  match boundary.operator with
  | .pipe => pipeline before (Text.trimStart after)
  | .overwrite =>
    redirect .truncate before (Text.trim after)
  | .append => redirect .append before (Text.trim after)

/-
  The directive of a line, given which names are
  registered.
-/
def ofLine
    (registered : String → Bool)
    (line : String) : Except UnclosedQuote Directive :=
  (Scan.ofLine line).map fun scan =>
    match scan.boundary with
    | none => ofWords registered scan.words
    | some boundary => atBoundary line boundary

------------------------------------------------------------
-- Sizes
------------------------------------------------------------

theorem length_trimStart_le
    (text : String) :
    (Text.trimStart text).length ≤ text.length := by
  simpa [Text.trimStart, String.length] using
    (List.dropWhile_sublist (l := text.toList)
      Text.isBlank).length_le

/-
  The text on either side of a boundary is shorter than the
  line.
-/
theorem length_sides_lt
    {line : String}
    {scan : Scan}
    {boundary : Boundary}
    (hScan : Scan.ofLine line = .ok scan)
    (hBoundary : scan.boundary = some boundary) :
    (Text.takeBytes boundary.position line.toList).length <
        line.length ∧
      (Text.dropBytes
        (boundary.position + boundary.operator.width)
        line.toList).length < line.length := by
  rcases Scan.read_boundary hScan hBoundary with
    ⟨before, after, hLine, hPosition⟩
  have hWidth :
      boundary.operator.width =
        Text.byteLength boundary.operator.text.toList := by
    cases boundary.operator <;> rfl
  have hText :
      0 < boundary.operator.text.toList.length := by
    cases boundary.operator <;> decide
  rw [Nat.zero_add] at hPosition
  have hTake :
      Text.takeBytes boundary.position line.toList =
        before := by
    rw [hPosition, hLine, List.append_assoc]
    exact Text.takeBytes_append _ _
  have hDrop :
      Text.dropBytes
        (boundary.position + boundary.operator.width)
        line.toList = after := by
    rw [hPosition, hWidth, hLine,
      ← Text.byteLength_append]
    exact Text.dropBytes_append _ _
  have hLength : line.length = line.toList.length := rfl
  rw [hTake, hDrop, hLength, hLine]
  simp only [List.length_append]
  omega

/-
  A directive comes from the words of its line, or from the
  boundary that divides it.
-/
theorem eq_of_ofLine
    {registered : String → Bool}
    {line : String}
    {directive : Directive}
    (h : ofLine registered line = .ok directive) :
    ∃ scan,
      Scan.ofLine line = .ok scan ∧
        ((scan.boundary = none ∧
            directive = ofWords registered scan.words) ∨
          ∃ boundary,
            scan.boundary = some boundary ∧
              directive = atBoundary line boundary) := by
  unfold ofLine at h
  cases hScan : Scan.ofLine line with
  | error fault => simp [hScan, Except.map] at h
  | ok scan =>
    refine ⟨scan, rfl, ?_⟩
    simp only [hScan, Except.map, Except.ok.injEq] at h
    cases hBoundary : scan.boundary with
    | none =>
      rw [hBoundary] at h
      exact Or.inl ⟨rfl, h.symm⟩
    | some boundary =>
      rw [hBoundary] at h
      exact Or.inr ⟨boundary, rfl, h.symm⟩

/- Words alone never make a composite directive. -/
theorem ofWords_cases
    (registered : String → Bool)
    (words : List String) :
    (words = [] ∧ ofWords registered words = .empty) ∨
      ∃ name args,
        words = name :: args ∧
          (ofWords registered words = .simple name args ∨
            ofWords registered words =
              .unregistered name args) := by
  cases words with
  | nil => exact Or.inl ⟨rfl, rfl⟩
  | cons name args =>
    refine Or.inr ⟨name, args, rfl, ?_⟩
    by_cases h : registered name = true
    · exact Or.inl (by simp [ofWords, h])
    · exact Or.inr (by simp [ofWords, h])

/- Both sides of a pipe are shorter than the line. -/
theorem length_pipeline_lt
    {registered : String → Bool}
    {line left right : String}
    (h : ofLine registered line =
      .ok (.pipeline left right)) :
    left.length < line.length ∧
      right.length < line.length := by
  rcases eq_of_ofLine h with
    ⟨scan, hScan, ⟨_, hWords⟩ | ⟨boundary, hBoundary, hEq⟩⟩
  · rcases ofWords_cases registered scan.words with
      ⟨_, hNone⟩ | ⟨_, _, _, hSome | hSome⟩ <;>
      simp_all
  · have hSides := length_sides_lt hScan hBoundary
    unfold atBoundary at hEq
    cases hOperator : boundary.operator <;>
      simp only [hOperator, Directive.pipeline.injEq,
        reduceCtorEq] at hEq
    rcases hEq with ⟨rfl, rfl⟩
    rw [hOperator] at hSides
    refine ⟨by simpa [String.length] using hSides.1, ?_⟩
    refine Nat.lt_of_le_of_lt (length_trimStart_le _) ?_
    simpa [String.length] using hSides.2

/- The left side of a redirect is shorter than the line. -/
theorem length_redirect_lt
    {registered : String → Bool}
    {line left target : String}
    {mode : WriteMode}
    (h : ofLine registered line =
      .ok (.redirect mode left target)) :
    left.length < line.length := by
  rcases eq_of_ofLine h with
    ⟨scan, hScan, ⟨_, hWords⟩ | ⟨boundary, hBoundary, hEq⟩⟩
  · rcases ofWords_cases registered scan.words with
      ⟨_, hNone⟩ | ⟨_, _, _, hSome | hSome⟩ <;>
      simp_all
  · have hSides := length_sides_lt hScan hBoundary
    unfold atBoundary at hEq
    cases hOperator : boundary.operator <;>
      simp only [hOperator, Directive.redirect.injEq,
        reduceCtorEq] at hEq
    all_goals
      rcases hEq with ⟨_, rfl, _⟩
      simpa [String.length] using hSides.1

end Directive

end LineShell

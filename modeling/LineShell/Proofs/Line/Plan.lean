import LineShell.Line.Directive
import LineShell.Proofs.Line.Grammar

/-
  Plans of lines. A line is cut at its first operator
  outside quotes, and what comes after a pipe is cut again:
  this leaves the stages between the pipes and the target
  behind a redirect.

  Key definitions include:
    * `Stage`
    * `Target`
    * `Plan`
    * `Plan.ofLine`
    * `Plan.Cuts`

  Correctness is proven by:
    * `Directive.ofLine_of_divided`
    * `Plan.cuts_iff`
-/

------------------------------------------------------------
-- Plans
------------------------------------------------------------

namespace LineShell

/-
  A stage of a line: its own text and, where an operator has
  cut it off, the text from which it was cut with the sort
  of directive which that text is.
-/
structure Stage where
  text : String
  cutFrom : Option (String × Directive.Kind)
deriving DecidableEq, Repr

namespace Stage

/- Nothing of the line comes after a stage. -/
def isFinal
    (stage : Stage) : Bool :=
  stage.cutFrom.isNone

end Stage

/- Where a redirect writes, and how. -/
structure Target where
  mode : WriteMode
  path : String
deriving DecidableEq, Repr

/- The stages of a line and the target after them, if any. -/
structure Plan where
  stages : List Stage
  target : Option Target
deriving DecidableEq, Repr

namespace Plan

/- A plan with one more stage, at its beginning. -/
def after
    (plan : Plan)
    (stage : Stage) : Plan :=
  { plan with stages := stage :: plan.stages }

/- The operator that asks for a way of writing. -/
def redirection :
    WriteMode → Operator
  | .truncate => .overwrite
  | .append => .append

/-
  Cuts a line at its first operator outside quotes, and what
  comes after a pipe again. What comes after a redirect is
  its target, operators included.
-/
def ofLine
    (line : String) : Plan :=
  match hScan : Scan.ofLine line with
  | .ok ⟨_, some ⟨operator, position⟩⟩ =>
    let front :=
      String.ofList (Text.takeBytes position line.toList)
    let rest :=
      String.ofList
        (Text.dropBytes (position + operator.width)
          line.toList)
    have hShorter : rest.length < line.length := by
      have hSides := Directive.length_sides_lt hScan rfl
      simpa [rest, String.length] using hSides.2
    match operator with
    | .pipe =>
      (ofLine (Text.trimStart rest)).after
        ⟨front, some (line, .pipeline)⟩
    | .overwrite =>
      ⟨[⟨front, some (line, .redirect .truncate)⟩],
        some ⟨.truncate, Text.trim rest⟩⟩
    | .append =>
      ⟨[⟨front, some (line, .redirect .append)⟩],
        some ⟨.append, Text.trim rest⟩⟩
  | _ => ⟨[⟨line, none⟩], none⟩
termination_by line.length
decreasing_by
  exact Nat.lt_of_le_of_lt
    (Directive.length_trimStart_le _) hShorter

end Plan

end LineShell

------------------------------------------------------------
-- Cutting at an operator
------------------------------------------------------------

namespace LineShell

/- The text of an operator is as wide as the operator. -/
theorem Operator.byteLength_text
    (operator : Operator) :
    Text.byteLength operator.text.toList =
      operator.width := by
  cases operator <;> rfl

/-
  A line, what stands before one of its operators and what
  stands behind it: the operator is the first one outside
  quotes.
-/
structure DividedAt
    (line front rest : String)
    (operator : Operator) : Prop where
  front_clean : IsCleanText front.toList
  single :
    operator = .overwrite → rest.toList.head? ≠ some '>'
  line_eq : line = front ++ (operator.text ++ rest)

namespace DividedAt

variable
    {line front rest : String}
    {operator : Operator}

theorem toList_eq
    (hDivided : DividedAt line front rest operator) :
    line.toList =
      front.toList ++
        (operator.text.toList ++ rest.toList) := by
  rw [hDivided.line_eq, String.toList_append,
    String.toList_append]

/- The scan of a divided line stops at the operator. -/
theorem exists_scan
    (hDivided : DividedAt line front rest operator) :
    ∃ words,
      Scan.ofLine line =
        .ok ⟨words,
          some ⟨operator,
            Text.byteLength front.toList⟩⟩ := by
  rcases hDivided.front_clean with ⟨pieces, hClean, hFront⟩
  have hLine := hDivided.toList_eq
  rw [hFront] at hLine ⊢
  exact
    ⟨_, (Reading.divided hClean hDivided.single
      hLine).ofLine_eq⟩

theorem takeBytes_eq
    (hDivided : DividedAt line front rest operator) :
    Text.takeBytes (Text.byteLength front.toList)
        line.toList =
      front.toList := by
  rw [hDivided.toList_eq]
  exact Text.takeBytes_append _ _

theorem dropBytes_eq
    (hDivided : DividedAt line front rest operator) :
    Text.dropBytes
        (Text.byteLength front.toList + operator.width)
        line.toList =
      rest.toList := by
  rw [hDivided.toList_eq, ← Operator.byteLength_text,
    ← Text.byteLength_append, ← List.append_assoc]
  exact Text.dropBytes_append _ _

/- What stands before the operator holds no operator. -/
theorem not_isDividedText_front
    (hDivided : DividedAt line front rest operator) :
    ¬ IsDividedText front.toList := by
  intro hText
  rcases Scan.ofLine_of_isCleanText hDivided.front_clean with
    ⟨words, hScan⟩
  rcases Scan.ofLine_of_isDividedText hText with
    ⟨others, boundary, hOther⟩
  rw [hScan] at hOther
  cases hOther

/- What stands behind the operator is shorter than the line. -/
theorem length_rest_lt
    (hDivided : DividedAt line front rest operator) :
    rest.length < line.length := by
  have hText : 0 < operator.text.length := by
    cases operator <;> decide
  rw [hDivided.line_eq, String.length_append,
    String.length_append]
  omega

end DividedAt

theorem exists_dividedAt
    {line : String}
    (hText : IsDividedText line.toList) :
    ∃ front rest operator,
      DividedAt line front rest operator := by
  rcases hText with
    ⟨front, rest, operator, hFront, hSingle, hLine⟩
  refine
    ⟨String.ofList front, String.ofList rest, operator,
      ?_, ?_, ?_⟩
  · simpa using hFront
  · simpa using hSingle
  · apply String.toList_inj.1
    simpa using hLine

/- The scan of an undivided text finds no operator. -/
theorem boundary_eq_none
    {line : String}
    {scan : Scan}
    (hWhole : ¬ IsDividedText line.toList)
    (hScan : Scan.ofLine line = .ok scan) :
    scan.boundary = none := by
  rcases scan with ⟨words, _ | ⟨operator, position⟩⟩
  · rfl
  · rcases Scan.exists_front_of_ofLine hScan with
      ⟨pieces, rest, hClean, hSingle, hLine, _⟩
    refine absurd ?_ hWhole
    exact
      ⟨_, rest, operator, ⟨pieces, hClean, rfl⟩, hSingle,
        hLine⟩

/-
  The directive of a divided line has its two sides, which
  it takes from the line without a look at the registry.
-/
theorem Directive.ofLine_of_divided
    {line front rest : String}
    {operator : Operator}
    (hDivided : DividedAt line front rest operator)
    (registered : String → Bool) :
    Directive.ofLine registered line =
      .ok
        (match operator with
        | .pipe => .pipeline front (Text.trimStart rest)
        | .overwrite =>
          .redirect .truncate front (Text.trim rest)
        | .append =>
          .redirect .append front (Text.trim rest)) := by
  rcases hDivided.exists_scan with ⟨words, hScan⟩
  have hTake := hDivided.takeBytes_eq
  have hDrop := hDivided.dropBytes_eq
  simp only [ofLine, hScan, Except.map, atBoundary, hTake,
    hDrop, String.ofList_toList]
  cases operator <;> rfl

/- What a redirect divides keeps the way of writing. -/
theorem Directive.ofLine_of_redirection
    {line front rest : String}
    {mode : WriteMode}
    (hDivided :
      DividedAt line front rest (Plan.redirection mode))
    (registered : String → Bool) :
    Directive.ofLine registered line =
      .ok (.redirect mode front (Text.trim rest)) := by
  rw [Directive.ofLine_of_divided hDivided]
  cases mode <;> rfl

end LineShell

------------------------------------------------------------
-- The plan of a line
------------------------------------------------------------

namespace LineShell

namespace Plan

/-
  The plans of a line as its grammar gives them: what stands
  before a pipe or a redirect is a stage, and so is a text
  that no operator divides.
-/
inductive Cuts :
    String → Plan → Prop
  | whole
      {line : String}
      (hWhole : ¬ IsDividedText line.toList) :
      Cuts line ⟨[⟨line, none⟩], none⟩
  | pipe
      {line front rest : String}
      {plan : Plan}
      (hDivided : DividedAt line front rest .pipe)
      (hRest : Cuts (Text.trimStart rest) plan) :
      Cuts line (plan.after ⟨front, some (line, .pipeline)⟩)
  | redirect
      {line front rest : String}
      {mode : WriteMode}
      (hDivided :
        DividedAt line front rest (redirection mode)) :
      Cuts line
        ⟨[⟨front, some (line, .redirect mode)⟩],
          some ⟨mode, Text.trim rest⟩⟩

/- A text that no operator divides is a plan of one stage. -/
theorem ofLine_of_whole
    {line : String}
    (hWhole : ¬ IsDividedText line.toList) :
    ofLine line = ⟨[⟨line, none⟩], none⟩ := by
  rw [ofLine]
  split
  · rename_i hScan
    have hNone := boundary_eq_none hWhole hScan
    cases hNone
  · rfl

/- An operator cuts off the first stage. -/
theorem ofLine_of_divided
    {line front rest : String}
    {operator : Operator}
    (hDivided : DividedAt line front rest operator) :
    ofLine line =
      match operator with
      | .pipe =>
        (ofLine (Text.trimStart rest)).after
          ⟨front, some (line, .pipeline)⟩
      | .overwrite =>
        ⟨[⟨front, some (line, .redirect .truncate)⟩],
          some ⟨.truncate, Text.trim rest⟩⟩
      | .append =>
        ⟨[⟨front, some (line, .redirect .append)⟩],
          some ⟨.append, Text.trim rest⟩⟩ := by
  rcases hDivided.exists_scan with ⟨words, hScan⟩
  rw [ofLine]
  split
  · rename_i hOther
    rw [hScan] at hOther
    cases hOther
    have hTake := hDivided.takeBytes_eq
    have hDrop := hDivided.dropBytes_eq
    cases operator <;>
      simp only [hTake, hDrop, String.ofList_toList]
  · rename_i hOther
    exact absurd hScan (hOther _ _ _)

/- The plan of a line cuts it as its grammar says. -/
theorem cuts_ofLine
    (line : String) :
    Cuts line (ofLine line) := by
  -- What comes after a pipe is a shorter line.
  induction hLength : line.length
    using Nat.strongRecOn generalizing line with
  | ind length ih =>
      subst hLength
      by_cases hText : IsDividedText line.toList
      · rcases exists_dividedAt hText with
          ⟨front, rest, operator, hDivided⟩
        have hShorter :
            (Text.trimStart rest).length < line.length :=
          Nat.lt_of_le_of_lt
            (Directive.length_trimStart_le rest)
            hDivided.length_rest_lt
        rw [ofLine_of_divided hDivided]
        cases operator with
        | pipe => exact .pipe hDivided (ih _ hShorter _ rfl)
        | overwrite =>
            exact @Cuts.redirect _ _ _ .truncate hDivided
        | append =>
            exact @Cuts.redirect _ _ _ .append hDivided
      · rw [ofLine_of_whole hText]
        exact .whole hText

/- A line is cut in one way only, and its plan is that way. -/
theorem cuts_iff
    {line : String}
    {plan : Plan} :
    Cuts line plan ↔ plan = ofLine line := by
  constructor
  · intro hCuts
    induction hCuts with
    | whole hWhole => exact (ofLine_of_whole hWhole).symm
    | pipe hDivided hRest ih =>
        rw [ofLine_of_divided hDivided, ih]
    | @redirect line front rest mode hDivided =>
        rw [ofLine_of_divided hDivided]
        cases mode <;> rfl
  · intro hPlan
    rw [hPlan]
    exact cuts_ofLine line

end Plan

end LineShell

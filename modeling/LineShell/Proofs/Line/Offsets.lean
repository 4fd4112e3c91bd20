import LineShell.Line.Directive
import LineShell.Proofs.Text.Slices

/-
  The offsets at which a line is cut. They come from a walk
  over characters, and the line is cut at them as a row of
  bytes: this never fails, and its parts are the sides of
  the operator.

  Key definitions include:
    * `Boundary.offsets`
    * `Directive.ofLine?`

  Correctness is proven by:
    * `Scan.isOffset_of_mem_offsets`
    * `Directive.ofLine?_eq`
-/

------------------------------------------------------------
-- Cuts that may fail
------------------------------------------------------------

namespace LineShell

/-
  The offsets around an operator: those before it, behind
  its first byte and behind its last.
-/
def Boundary.offsets
    (boundary : Boundary) : List Nat :=
  [boundary.position, boundary.position + 1,
    boundary.position + boundary.operator.width]

namespace Directive

/-
  The directive of a line that an operator divides, unless
  the line cannot be cut there.
-/
def atBoundary?
    (line : String)
    (boundary : Boundary) : Option Directive := do
  let before ← Text.slice? line 0 boundary.position
  let after ←
    Text.slice? line
      (boundary.position + boundary.operator.width)
      line.utf8ByteSize
  some
    (match boundary.operator with
    | .pipe => pipeline before (Text.trimStart after)
    | .overwrite =>
      redirect .truncate before (Text.trim after)
    | .append => redirect .append before (Text.trim after))

/-
  The directive of a line, unless the line is cut where it
  cannot be cut.
-/
def ofLine?
    (registered : String → Bool)
    (line : String) :
    Option (Except UnclosedQuote Directive) :=
  match Scan.ofLine line with
  | .error fault => some (.error fault)
  | .ok scan =>
    match scan.boundary with
    | none => some (.ok (ofWords registered scan.words))
    | some boundary =>
      (atBoundary? line boundary).map .ok

end Directive

end LineShell

------------------------------------------------------------
-- No cut fails
------------------------------------------------------------

namespace LineShell

theorem Operator.utf8ByteSize_text
    (operator : Operator) :
    operator.text.utf8ByteSize = operator.width := by
  cases operator <;> rfl

namespace Scan

variable
    {line : String}
    {scan : Scan}
    {boundary : Boundary}

/- An operator stands where its position says. -/
theorem exists_sides
    (hScan : Scan.ofLine line = .ok scan)
    (hBoundary : scan.boundary = some boundary) :
    ∃ before after,
      line =
          before ++ (boundary.operator.text ++ after) ∧
        before.utf8ByteSize = boundary.position := by
  rcases read_boundary hScan hBoundary with
    ⟨before, after, hLine, hPosition⟩
  refine
    ⟨String.ofList before, String.ofList after, ?_, ?_⟩
  · apply String.toList_inj.1
    simpa using hLine
  · rw [hPosition, Nat.zero_add, ← Text.byteLength_toList,
      String.toList_ofList]

/- A line can be cut at all offsets around its operator. -/
theorem isOffset_of_mem_offsets
    (hScan : Scan.ofLine line = .ok scan)
    (hBoundary : scan.boundary = some boundary)
    {offset : Nat}
    (hMem : offset ∈ boundary.offsets) :
    Text.isOffset line offset = true := by
  rcases exists_sides hScan hBoundary with
    ⟨before, after, hLine, hPosition⟩
  have hParts :
      ∃ first second,
        boundary.operator.text = first ++ second ∧
          before.utf8ByteSize + first.utf8ByteSize =
            offset := by
    rw [hPosition]
    unfold Boundary.offsets at hMem
    simp only [List.mem_cons, List.not_mem_nil, or_false]
      at hMem
    rcases hMem with rfl | rfl | rfl
    · exact ⟨"", _, String.empty_append.symm, rfl⟩
    · cases boundary.operator with
      | pipe => exact ⟨"|", "", rfl, rfl⟩
      | overwrite => exact ⟨">", "", rfl, rfl⟩
      | append => exact ⟨">", ">", rfl, rfl⟩
    · rw [← Operator.utf8ByteSize_text]
      exact ⟨_, "", String.append_empty.symm, rfl⟩
  rcases hParts with ⟨first, second, hText, hOffset⟩
  refine
    Text.isOffset_iff.2
      ⟨before ++ first, second ++ after, ?_, ?_⟩
  · rw [hLine, hText]
    simp only [String.append_assoc]
  · rw [String.utf8ByteSize_append]
    exact hOffset

end Scan

namespace Directive

theorem atBoundary?_eq
    {line : String}
    {scan : Scan}
    {boundary : Boundary}
    (hScan : Scan.ofLine line = .ok scan)
    (hBoundary : scan.boundary = some boundary) :
    atBoundary? line boundary =
      some (atBoundary line boundary) := by
  rcases Scan.exists_sides hScan hBoundary with
    ⟨before, after, hLine, hPosition⟩
  have hStop :
      (before ++ boundary.operator.text).utf8ByteSize =
        boundary.position + boundary.operator.width := by
    rw [String.utf8ByteSize_append, hPosition,
      Operator.utf8ByteSize_text]
  have hLeft :
      Text.slice? line 0 boundary.position =
        some before := by
    rw [hLine, ← hPosition]
    exact Text.slice?_left before _
  have hRight :
      Text.slice? line
          (boundary.position + boundary.operator.width)
          line.utf8ByteSize =
        some after := by
    rw [hLine, ← String.append_assoc, ← hStop]
    exact Text.slice?_right _ after
  have hTake :
      Text.takeBytes boundary.position line.toList =
        before.toList := by
    rw [hLine, ← hPosition, ← Text.byteLength_toList,
      String.toList_append]
    exact Text.takeBytes_append _ _
  have hDrop :
      Text.dropBytes
          (boundary.position + boundary.operator.width)
          line.toList =
        after.toList := by
    rw [hLine, ← String.append_assoc, ← hStop,
      ← Text.byteLength_toList]
    simp only [String.toList_append]
    exact Text.dropBytes_append _ _
  unfold atBoundary? atBoundary
  simp only [hLeft, hRight, hTake, hDrop,
    String.ofList_toList]
  cases boundary.operator <;> rfl

/- Every line can be cut where it is cut. -/
theorem ofLine?_eq
    (registered : String → Bool)
    (line : String) :
    ofLine? registered line =
      some (ofLine registered line) := by
  unfold ofLine? ofLine
  cases hScan : Scan.ofLine line with
  | error fault => rfl
  | ok scan =>
      cases hBoundary : scan.boundary with
      | none => simp [Except.map, hBoundary]
      | some boundary =>
          simp [Except.map, hBoundary,
            atBoundary?_eq hScan hBoundary]

theorem ofLine_of_ofLine?
    {registered : String → Bool}
    {line : String}
    {result : Except UnclosedQuote Directive}
    (hLine : ofLine? registered line = some result) :
    ofLine registered line = result := by
  rw [ofLine?_eq] at hLine
  exact Option.some.inj hLine

end Directive

end LineShell

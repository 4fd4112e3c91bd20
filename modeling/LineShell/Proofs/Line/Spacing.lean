import LineShell.Proofs.Line.Grammar
import LineShell.Proofs.Text.Slices

/-
  Spaces outside quotes. Behind a text that leaves no quote
  open a space is a clean cut: what follows is read as if it
  stood alone, and only its place in the line is another
  one. How many spaces stand there makes no difference.

  Key definitions include:
    * `Text.spaces`
    * `Scan.behind`
    * `Scan.SameSort`
    * `IsRespaced`

  Correctness is proven by:
    * `Scan.read_moved`
    * `Scan.ofLine_append_spaces`
    * `scan_cuts_at_spaces`
-/

------------------------------------------------------------
-- Moved positions
------------------------------------------------------------

namespace LineShell

/- A row of spaces. -/
def Text.spaces
    (count : Nat) : String :=
  String.ofList (List.replicate count ' ')

/- An unclosed quote so many bytes further to the right. -/
def UnclosedQuote.moved
    (distance : Nat)
    (fault : UnclosedQuote) : UnclosedQuote :=
  { fault with position := distance + fault.position }

/- A boundary so many bytes further to the right. -/
def Boundary.moved
    (distance : Nat)
    (boundary : Boundary) : Boundary :=
  { boundary with
    position := distance + boundary.position }

namespace Scan

/- A place so many bytes further to the right. -/
def Place.moved
    (distance : Nat) :
    Place → Place
  | .outside word => .outside word
  | .inside opened word =>
    .inside (opened.moved distance) word

/-
  What a scan is behind a text of so many bytes that has
  these words: they come first, and what stands at a
  position stands further to the right.
-/
def behind
    (words : List String)
    (width : Nat) :
    Except UnclosedQuote Scan → Except UnclosedQuote Scan
  | .error fault => .error (fault.moved width)
  | .ok scan =>
    .ok ⟨words ++ scan.words,
      scan.boundary.map (Boundary.moved width)⟩

theorem map_prepend_behind
    (words : List String)
    (width : Nat)
    (result : Except UnclosedQuote Scan) :
    (behind [] width result).map (prepend words) =
      behind words width result := by
  cases result <;> rfl

theorem behind_map_prepend
    (words : List String)
    (width : Nat)
    (result : Except UnclosedQuote Scan) :
    behind [] width (result.map (prepend words)) =
      (behind [] width result).map (prepend words) := by
  cases result <;> rfl

/-
  Reading takes nothing from a position but to report it:
  from a place further to the right the same is read, and
  reported further to the right.
-/
theorem read_moved
    (distance : Nat)
    (place : Place)
    (position : Nat)
    (chars : List Char) :
    read (place.moved distance) (distance + position)
        chars =
      behind [] distance (read place position chars) := by
  induction chars generalizing place position with
  | nil => cases place <;> rfl
  | cons c rest ih =>
      have hNext :
          ∀ next : Place,
            read (next.moved distance)
                (distance + position + c.utf8Size) rest =
              behind [] distance
                (read next (position + c.utf8Size) rest) := by
        intro next
        rw [Nat.add_assoc]
        exact ih next _
      cases place with
      | outside word =>
          simp only [read, Place.moved]
          split
          · exact hNext (.inside ⟨c, position⟩ word)
          split
          · rw [behind_map_prepend, ← hNext (.outside [])]
            rfl
          split
          · rfl
          split
          · split <;> rfl
          · exact hNext (.outside (c :: word))
      | inside opened word =>
          simp only [read, Place.moved, UnclosedQuote.moved]
          split
          · rw [behind_map_prepend, ← hNext (.outside [])]
            rfl
          · exact hNext (.inside opened (c :: word))

end Scan

end LineShell

------------------------------------------------------------
-- Spaces behind a clean text
------------------------------------------------------------

namespace LineShell

namespace Text

theorem toList_spaces
    (count : Nat) :
    (spaces count).toList = List.replicate count ' ' :=
  String.toList_ofList

theorem spaces_succ
    (count : Nat) :
    (spaces (count + 1)).toList =
      ' ' :: List.replicate count ' ' := by
  rw [toList_spaces, List.replicate_succ]

/- No quote stands among spaces. -/
theorem quote_not_mem_spaces
    {quote : Char}
    (hQuote : isQuote quote = true)
    (count : Nat) :
    quote ∉ (spaces count).toList := by
  intro hMem
  rw [toList_spaces] at hMem
  obtain rfl := List.eq_of_mem_replicate hMem
  cases hQuote

end Text

namespace Scan

/- Outside quotes and words spaces are passed over. -/
theorem read_spaces
    (count position : Nat)
    (rest : List Char) :
    read (.outside []) position
        (List.replicate count ' ' ++ rest) =
      read (.outside []) (position + count) rest := by
  induction count generalizing position with
  | zero => rfl
  | succ count ih =>
      rw [List.replicate_succ, List.cons_append, read_space,
        ih]
      simp [completed, Nat.add_assoc, Nat.add_comm 1]

/- Spaces before a line move what is read of it. -/
theorem ofLine_spaces_append
    (count : Nat)
    (line : String) :
    ofLine (Text.spaces count ++ line) =
      behind [] count (ofLine line) := by
  have hMoved :=
    read_moved count (.outside []) 0 line.toList
  unfold ofLine
  rw [String.toList_append, Text.toList_spaces,
    read_spaces, Nat.zero_add]
  exact hMoved

/-
  Behind a text without an operator or an open quote there
  are spaces, and then a line: it is read as it is alone.
-/
theorem ofLine_append_spaces
    {first : String}
    {words : List String}
    (hFirst : ofLine first = .ok ⟨words, none⟩)
    (more : Nat)
    (second : String) :
    ofLine (first ++ Text.spaces (more + 1) ++ second) =
      behind words (first.utf8ByteSize + (more + 1))
        (ofLine second) := by
  cases (ofLine_eq_iff first _).1 hFirst with
  | @clean pieces hClean hText =>
      have hLine :
          (first ++ Text.spaces (more + 1) ++
              second).toList =
            pieces.text ++
              ' ' :: (List.replicate more ' ' ++
                second.toList) := by
        rw [String.toList_append, String.toList_append,
          Text.spaces_succ, hText, List.append_assoc,
          List.cons_append]
      have hWidth :
          first.utf8ByteSize =
            Text.byteLength pieces.text := by
        rw [← hText, Text.byteLength_toList]
      have hMoved :=
        read_moved (first.utf8ByteSize + (more + 1))
          (.outside []) 0 second.toList
      have hPosition :
          first.utf8ByteSize + 1 + more =
            first.utf8ByteSize + (more + 1) + 0 := by
        omega
      -- The space completes the word at the end of the first
      -- text, and the other spaces complete no word.
      unfold ofLine
      rw [hLine, Pieces.read_text hClean, read_space,
        Nat.zero_add, ← hWidth, read_spaces,
        map_prepend_prepend,
        Pieces.complete_append_pending hClean, hPosition,
        ← map_prepend_behind, ← hMoved]
      rfl

/-
  What stands behind the operator of a text is not read,
  unless it starts with an angle.
-/
theorem ofLine_append_of_boundary
    {front : String}
    {words : List String}
    {boundary : Boundary}
    (hFront : ofLine front = .ok ⟨words, some boundary⟩)
    {rest : String}
    (hAngle : rest.toList.head? ≠ some '>') :
    ofLine (front ++ rest) = ofLine front := by
  rw [hFront]
  cases (ofLine_eq_iff front _).1 hFront with
  | @divided pieces operator tail hClean hSingle hText =>
      have hLine :
          (front ++ rest).toList =
            pieces.text ++
              (operator.text.toList ++
                (tail ++ rest.toList)) := by
        rw [String.toList_append, hText]
        simp only [List.append_assoc]
      refine (Reading.divided hClean ?_ hLine).ofLine_eq
      intro hOperator
      cases tail with
      | nil => exact hAngle
      | cons c tail => exact hSingle hOperator

/- Spaces at the end of a line change nothing. -/
theorem ofLine_append_end
    (line : String)
    (count : Nat) :
    ofLine (line ++ Text.spaces count) = ofLine line := by
  cases hScan : ofLine line with
  | error fault =>
      cases (ofLine_eq_iff line _).1 hScan with
      | @unclosed pieces quote tail hClean hQuote hOpen hText =>
          have hLine :
              (line ++ Text.spaces count).toList =
                pieces.text ++
                  quote ::
                    (tail ++ (Text.spaces count).toList) := by
            rw [String.toList_append, hText,
              List.append_assoc, List.cons_append]
          refine
            (Reading.unclosed hClean hQuote ?_
              hLine).ofLine_eq
          rw [List.mem_append, not_or]
          exact
            ⟨hOpen, Text.quote_not_mem_spaces hQuote count⟩
  | ok scan =>
      rcases scan with ⟨words, _ | boundary⟩
      · cases count with
        | zero =>
            have hLine : line ++ Text.spaces 0 = line :=
              String.append_empty
            rw [hLine, hScan]
        | succ more =>
            have hCut := ofLine_append_spaces hScan more ""
            rw [String.append_empty] at hCut
            rw [hCut]
            simp [behind, ofLine, read, completed]
      · rw [ofLine_append_of_boundary hScan, hScan]
        rw [Text.toList_spaces]
        cases count <;> simp [List.replicate_succ]

end Scan

end LineShell

------------------------------------------------------------
-- Lines with other spaces
------------------------------------------------------------

namespace LineShell

/-
  Two scans have the same words and stop at the same
  operator, or they report the same quote. Only positions
  may differ.
-/
inductive Scan.SameSort :
    Except UnclosedQuote Scan →
      Except UnclosedQuote Scan → Prop
  | unclosed
      {first second : UnclosedQuote}
      (hQuote : first.quote = second.quote) :
      SameSort (.error first) (.error second)
  | read
      {first second : Scan}
      (hWords : first.words = second.words)
      (hOperator :
        first.boundary.map Boundary.operator =
          second.boundary.map Boundary.operator) :
      SameSort (.ok first) (.ok second)

namespace Scan.SameSort

variable
    {first second third : Except UnclosedQuote Scan}

theorem refl
    (result : Except UnclosedQuote Scan) :
    SameSort result result := by
  cases result with
  | error fault => exact .unclosed rfl
  | ok scan => exact .read rfl rfl

theorem trans
    (hFirst : SameSort first second)
    (hSecond : SameSort second third) :
    SameSort first third := by
  cases hFirst with
  | unclosed hQuote =>
      cases hSecond with
      | unclosed hOther => exact .unclosed (hQuote.trans hOther)
  | read hWords hOperator =>
      cases hSecond with
      | read hOthers hOther =>
          exact
            .read (hWords.trans hOthers)
              (hOperator.trans hOther)

/- The text before a scan decides on its positions alone. -/
theorem behind
    (words : List String)
    (width other : Nat)
    (result : Except UnclosedQuote Scan) :
    SameSort (Scan.behind words width result)
      (Scan.behind words other result) := by
  cases result with
  | error fault => exact .unclosed rfl
  | ok scan =>
      refine .read rfl ?_
      rcases scan with ⟨others, _ | boundary⟩ <;> rfl

end Scan.SameSort

/-
  One line is the other one but for the number of spaces at
  its ends, where there may be none, and in gaps outside
  quotes, where there is at least one. A gap is outside
  quotes if the text before it leaves no quote open.
-/
inductive IsRespaced :
    String → String → Prop
  | same
      (line : String) :
      IsRespaced line line
  | start
      (count other : Nat)
      (line : String) :
      IsRespaced (Text.spaces count ++ line)
        (Text.spaces other ++ line)
  | finish
      (line : String)
      (count other : Nat) :
      IsRespaced (line ++ Text.spaces count)
        (line ++ Text.spaces other)
  | gap
      {front : String}
      {scan : Scan}
      (hFront : Scan.ofLine front = .ok scan)
      (count other : Nat)
      (rest : String) :
      IsRespaced
        (front ++ Text.spaces (count + 1) ++ rest)
        (front ++ Text.spaces (other + 1) ++ rest)
  | trans
      {first second third : String}
      (hFirst : IsRespaced first second)
      (hSecond : IsRespaced second third) :
      IsRespaced first third

/- How wide a gap outside quotes is makes no difference. -/
theorem Scan.sameSort_gap
    {front : String}
    {scan : Scan}
    (hFront : ofLine front = .ok scan)
    (count other : Nat)
    (rest : String) :
    SameSort
      (ofLine (front ++ Text.spaces (count + 1) ++ rest))
      (ofLine (front ++ Text.spaces (other + 1) ++ rest)) := by
  rcases scan with ⟨words, _ | boundary⟩
  · rw [ofLine_append_spaces hFront,
      ofLine_append_spaces hFront]
    exact .behind words _ _ _
  · -- What stands behind an operator is not read at all.
    have hSame :
        ∀ more,
          ofLine (front ++ Text.spaces (more + 1) ++ rest) =
            ofLine front := by
      intro more
      rw [String.append_assoc]
      apply ofLine_append_of_boundary hFront
      simp [Text.spaces_succ]
    rw [hSame count, hSame other]
    exact .refl _

theorem IsRespaced.sameSort
    {first second : String}
    (hRespaced : IsRespaced first second) :
    Scan.SameSort (Scan.ofLine first)
      (Scan.ofLine second) := by
  induction hRespaced with
  | same line => exact .refl _
  | start count other line =>
      rw [Scan.ofLine_spaces_append,
        Scan.ofLine_spaces_append]
      exact .behind [] _ _ _
  | finish line count other =>
      rw [Scan.ofLine_append_end, Scan.ofLine_append_end]
      exact .refl _
  | gap hFront count other rest =>
      exact Scan.sameSort_gap hFront count other rest
  | trans hFirst hSecond ihFirst ihSecond =>
      exact ihFirst.trans ihSecond

/-
  Spaces outside quotes are clean cuts. Behind a text with
  some words and without an operator or an open quote, and
  behind any spaces after it, a line is read as it is alone:
  the words of the text come first, and the operator or the
  open quote of the line stands further to the right by the
  bytes of the text and the number of the spaces. So no line
  has other words or ends in another way when the number of
  spaces is another one at its ends or in its gaps outside
  quotes.
-/
theorem scan_cuts_at_spaces :
    (∀ (first second : String) (words : List String)
        (count : Nat),
      Scan.ofLine first = .ok ⟨words, none⟩ →
        1 ≤ count →
          Scan.ofLine
              (first ++ Text.spaces count ++ second) =
            match Scan.ofLine second with
            | .error fault =>
              .error
                ⟨fault.quote,
                  first.utf8ByteSize + count +
                    fault.position⟩
            | .ok scan =>
              .ok
                ⟨words ++ scan.words,
                  scan.boundary.map fun boundary =>
                    ⟨boundary.operator,
                      first.utf8ByteSize + count +
                        boundary.position⟩⟩) ∧
      ∀ line other,
        IsRespaced line other →
          Scan.SameSort (Scan.ofLine line)
            (Scan.ofLine other) := by
  constructor
  · intro first second words count hFirst hSome
    obtain ⟨more, rfl⟩ : ∃ more, count = more + 1 :=
      ⟨count - 1, by omega⟩
    rw [Scan.ofLine_append_spaces hFirst]
    cases Scan.ofLine second <;> rfl
  · intro line other hRespaced
    exact hRespaced.sameSort

/- Behind a quoted word and two spaces a pipe moves up. -/
theorem quoted_word_moves_pipe :
    Scan.ofLine "cat 'ä b'" = .ok ⟨["cat", "ä b"], none⟩ ∧
      Scan.ofLine
          ("cat 'ä b'" ++ Text.spaces 2 ++ "c| more") =
        .ok ⟨["cat", "ä b"], some ⟨.pipe, 13⟩⟩ ∧
      IsRespaced ("cat" ++ Text.spaces 1 ++ "'ä b'")
        ("cat" ++ Text.spaces 3 ++ "'ä b'") ∧
      Scan.SameSort
        (Scan.ofLine ("cat" ++ Text.spaces 1 ++ "'ä b'"))
        (Scan.ofLine
          ("cat" ++ Text.spaces 3 ++ "'ä b'")) := by
  have hFirst :
      Scan.ofLine "cat 'ä b'" =
        .ok ⟨["cat", "ä b"], none⟩ := by
    rfl
  have hRespaced :
      IsRespaced ("cat" ++ Text.spaces 1 ++ "'ä b'")
        ("cat" ++ Text.spaces 3 ++ "'ä b'") :=
    .gap (by rfl : Scan.ofLine "cat" = .ok ⟨["cat"], none⟩)
      0 2 "'ä b'"
  refine ⟨hFirst, ?_, hRespaced, ?_⟩
  · rw [scan_cuts_at_spaces.1 _ _ _ 2 hFirst (by decide)]
    rfl
  · exact scan_cuts_at_spaces.2 _ _ hRespaced

end LineShell

import LineShell.Line.Scan

/-
  The grammar of lines, and the proof that scanning decides
  it. A line is taken apart into spaces, bare words and
  quoted words; what ends this row of pieces is the end of
  the line, an operator, or a quote that is never closed.

  Key definitions include:
    * `IsPlain`
    * `Piece`
    * `Pieces.IsClean`
    * `Pieces.yield`
    * `Pieces.complete`
    * `Reading`

  Correctness is proven by:
    * `Pieces.read_text`
    * `Reading.total`
    * `Reading.ofLine_eq`
    * `scan_decides_grammar`
-/

namespace LineShell

------------------------------------------------------------
-- Pieces of a line
------------------------------------------------------------

/- A character that means nothing but itself outside quotes. -/
def IsPlain
    (c : Char) : Prop :=
  c ≠ ' ' ∧ isQuote c = false ∧ c ≠ '|' ∧ c ≠ '>'

instance
    (c : Char) :
    Decidable (IsPlain c) := by
  unfold IsPlain
  infer_instance

/-
  A space, a bare word, or a quoted word: a run of plain
  characters with a quoted body behind it.
-/
inductive Piece where
  | space
  | bare (run : List Char)
  | quoted
      (run : List Char)
      (quote : Char)
      (body : List Char)
deriving DecidableEq, Repr

namespace Piece

/- A piece as it is written. -/
def text :
    Piece → List Char
  | space => [' ']
  | bare run => run
  | quoted run quote body =>
    run ++ quote :: (body ++ [quote])

/- The words that a piece stands for: one or none. -/
def words :
    Piece → List String
  | space => []
  | bare run => [String.ofList run]
  | quoted run _ body => [String.ofList (run ++ body)]

/- The characters of a piece that stand outside quotes. -/
def unquoted :
    Piece → List Char
  | space => [' ']
  | bare run => run
  | quoted run _ _ => run

end Piece

/- A row of pieces. -/
abbrev Pieces :=
  List Piece

namespace Pieces

/- A row of pieces as it is written. -/
def text
    (pieces : Pieces) : List Char :=
  pieces.flatMap Piece.text

/- The words of a row of pieces, in order. -/
def yield
    (pieces : Pieces) : List String :=
  pieces.flatMap Piece.words

/- The characters of a row that stand outside quotes. -/
def unquoted
    (pieces : Pieces) : List Char :=
  pieces.flatMap Piece.unquoted

/-
  The words of a row of pieces, less a bare word with which
  the row ends.
-/
def complete :
    Pieces → List String
  | [] => []
  | [.bare _] => []
  | piece :: rest => piece.words ++ complete rest

/- The bare word with which a row of pieces ends, if any. -/
def pending :
    Pieces → List Char
  | [] => []
  | [.bare run] => run
  | _ :: rest => pending rest

/-
  A row of pieces is clean when a space or the end follows
  each bare word, which is not empty, when runs are plain,
  and when no quoted body holds its quote.
-/
inductive IsClean :
    Pieces → Prop
  | nil : IsClean []
  | space
      {rest : Pieces}
      (hRest : IsClean rest) :
      IsClean (.space :: rest)
  | quoted
      {run body : List Char}
      {quote : Char}
      {rest : Pieces}
      (hRun : ∀ c ∈ run, IsPlain c)
      (hQuote : isQuote quote = true)
      (hBody : quote ∉ body)
      (hRest : IsClean rest) :
      IsClean (.quoted run quote body :: rest)
  | lastBare
      {run : List Char}
      (hSome : run ≠ [])
      (hRun : ∀ c ∈ run, IsPlain c) :
      IsClean [.bare run]
  | bare
      {run : List Char}
      {rest : Pieces}
      (hSome : run ≠ [])
      (hRun : ∀ c ∈ run, IsPlain c)
      (hRest : IsClean (.space :: rest)) :
      IsClean (.bare run :: .space :: rest)

@[simp]
theorem text_nil :
    text [] = [] :=
  rfl

@[simp]
theorem text_cons
    (piece : Piece)
    (rest : Pieces) :
    text (piece :: rest) = piece.text ++ text rest :=
  rfl

@[simp]
theorem text_append
    (first second : Pieces) :
    text (first ++ second) = text first ++ text second :=
  List.flatMap_append

/- A word of which there are characters is completed. -/
theorem completed_reverse
    {run : List Char}
    (hSome : run ≠ []) :
    Scan.completed run.reverse = [String.ofList run] := by
  cases hReverse : run.reverse with
  | nil =>
      exact absurd (List.reverse_eq_nil_iff.1 hReverse)
        hSome
  | cons c word =>
      have hWord : (c :: word).reverse = run := by
        rw [← hReverse, List.reverse_reverse]
      rw [Scan.completed, Scan.wordOf, hWord]

/-
  The words of a clean row are those that are complete and
  the bare word at its end.
-/
theorem complete_append_pending
    {pieces : Pieces}
    (hClean : IsClean pieces) :
    complete pieces ++
        Scan.completed (pending pieces).reverse =
      yield pieces := by
  induction hClean with
  | nil => rfl
  | space hRest ih =>
      simpa [complete, pending, yield] using ih
  | quoted hRun hQuote hBody hRest ih =>
      simpa [complete, pending, yield] using ih
  | lastBare hSome hRun =>
      simp [complete, pending, yield, Piece.words,
        completed_reverse hSome]
  | bare hSome hRun hRest ih =>
      simpa [complete, pending, yield, Piece.words] using ih

/- Behind a clean row, a space and a clean row go on. -/
theorem IsClean.append_space
    {first rest : Pieces}
    (hFirst : IsClean first)
    (hRest : IsClean rest) :
    IsClean (first ++ .space :: rest) := by
  induction hFirst with
  | nil => exact .space hRest
  | space hTail ih => exact .space ih
  | quoted hRun hQuote hBody hTail ih =>
      exact .quoted hRun hQuote hBody ih
  | lastBare hSome hRun =>
      exact .bare hSome hRun (.space hRest)
  | bare hSome hRun hTail ih => exact .bare hSome hRun ih

@[simp]
theorem yield_append
    (first second : Pieces) :
    yield (first ++ second) = yield first ++ yield second :=
  List.flatMap_append

/- No operator stands outside the quotes of a clean row. -/
theorem not_operator_of_mem_unquoted
    {pieces : Pieces}
    (hClean : IsClean pieces)
    {c : Char}
    (hMem : c ∈ unquoted pieces) :
    c ≠ '|' ∧ c ≠ '>' := by
  have ofRun : ∀ {run : List Char},
      (∀ c ∈ run, IsPlain c) → c ∈ run →
        c ≠ '|' ∧ c ≠ '>' := by
    intro run hRun hIn
    exact (hRun c hIn).2.2
  induction hClean with
  | nil => cases hMem
  | space hRest ih =>
      rcases List.mem_append.1 hMem with hHere | hThere
      · rw [List.mem_singleton.1 hHere]
        decide
      · exact ih hThere
  | quoted hRun hQuote hBody hRest ih =>
      rcases List.mem_append.1 hMem with hHere | hThere
      · exact ofRun hRun hHere
      · exact ih hThere
  | lastBare hSome hRun =>
      rcases List.mem_append.1 hMem with hHere | hThere
      · exact ofRun hRun hHere
      · cases hThere
  | bare hSome hRun hRest ih =>
      rcases List.mem_append.1 hMem with hHere | hThere
      · exact ofRun hRun hHere
      · exact ih hThere

end Pieces

end LineShell

------------------------------------------------------------
-- Scanning pieces
------------------------------------------------------------

namespace LineShell

namespace Scan

theorem map_prepend_prepend
    (first second : List String)
    (result : Except UnclosedQuote Scan) :
    (result.map (prepend second)).map (prepend first) =
      result.map (prepend (first ++ second)) := by
  cases result with
  | error fault => rfl
  | ok scan =>
      simp [Except.map, prepend]

@[simp]
theorem map_prepend_nil
    (result : Except UnclosedQuote Scan) :
    result.map (prepend []) = result := by
  cases result <;> rfl

/- Outside quotes a plain character joins the word. -/
theorem read_plain
    {c : Char}
    (hPlain : IsPlain c)
    (word : List Char)
    (position : Nat)
    (rest : List Char) :
    read (.outside word) position (c :: rest) =
      read (.outside (c :: word)) (position + c.utf8Size)
        rest := by
  rcases hPlain with ⟨hSpace, hQuote, hPipe, hAngle⟩
  simp [read, hSpace, hQuote, hPipe, hAngle]

/- Outside quotes a run of plain characters joins the word. -/
theorem read_run
    {run : List Char}
    (hRun : ∀ c ∈ run, IsPlain c)
    (word : List Char)
    (position : Nat)
    (rest : List Char) :
    read (.outside word) position (run ++ rest) =
      read (.outside (run.reverse ++ word))
        (position + Text.byteLength run) rest := by
  induction run generalizing word position with
  | nil => rfl
  | cons c run ih =>
      have hTail : ∀ c ∈ run, IsPlain c := by
        intro d hMem
        exact hRun d (List.mem_cons_of_mem _ hMem)
      rw [List.cons_append, read_plain (hRun c (by simp)),
        ih hTail]
      simp [Nat.add_assoc]

/- Outside quotes a space completes the word. -/
theorem read_space
    (word : List Char)
    (position : Nat)
    (rest : List Char) :
    read (.outside word) position (' ' :: rest) =
      (read (.outside []) (position + 1) rest).map
        (prepend (completed word)) := by
  have hQuote : isQuote ' ' = false := by decide
  have hSize : ' '.utf8Size = 1 := by decide
  simp [read, hQuote, hSize]

/-
  The characters before a space make the word that it
  completes, and nothing else hangs on them.
-/
theorem read_word
    (word : List Char)
    (position : Nat)
    (rest : List Char) :
    read (.outside word) position (' ' :: rest) =
      (read (.outside []) position (' ' :: rest)).map
        (prepend (completed word)) := by
  rw [read_space, read_space, map_prepend_prepend]
  simp [completed]

/- Outside quotes a quote opens a quoted part. -/
theorem read_quote
    {quote : Char}
    (hQuote : isQuote quote = true)
    (word : List Char)
    (position : Nat)
    (rest : List Char) :
    read (.outside word) position (quote :: rest) =
      read (.inside ⟨quote, position⟩ word)
        (position + quote.utf8Size) rest := by
  simp [read, hQuote]

/- A quoted part goes on to the quote that opened it. -/
theorem read_body
    (opened : UnclosedQuote)
    {body : List Char}
    (hBody : opened.quote ∉ body)
    (word : List Char)
    (position : Nat)
    (rest : List Char) :
    read (.inside opened word) position
        (body ++ opened.quote :: rest) =
      (read (.outside [])
          (position + Text.byteLength body +
            opened.quote.utf8Size) rest).map
        (prepend [wordOf (body.reverse ++ word)]) := by
  induction body generalizing word position with
  | nil => simp [read]
  | cons c body ih =>
      have hNe : c ≠ opened.quote := by
        intro hEq
        exact hBody (by simp [hEq])
      have hTail : opened.quote ∉ body := by
        intro hMem
        exact hBody (List.mem_cons_of_mem _ hMem)
      rw [List.cons_append, read]
      simp only [hNe, if_false]
      rw [ih hTail]
      simp [Nat.add_assoc]

/- A quoted part without its quote is never closed. -/
theorem read_unclosed
    {opened : UnclosedQuote}
    {body : List Char}
    (hBody : opened.quote ∉ body)
    (word : List Char)
    (position : Nat) :
    read (.inside opened word) position body =
      .error opened := by
  induction body generalizing word position with
  | nil => rfl
  | cons c body ih =>
      have hNe : c ≠ opened.quote := by
        intro hEq
        exact hBody (by simp [hEq])
      have hTail : opened.quote ∉ body := by
        intro hMem
        exact hBody (List.mem_cons_of_mem _ hMem)
      simp only [read, hNe, if_false]
      exact ih hTail _ _

/-
  Outside quotes an operator ends the scan. A single angle
  is one that no other angle follows.
-/
theorem read_operator
    {operator : Operator}
    {rest : List Char}
    (hSingle :
      operator = .overwrite → rest.head? ≠ some '>')
    (word : List Char)
    (position : Nat) :
    read (.outside word) position
        (operator.text.toList ++ rest) =
      .ok ⟨[], some ⟨operator, position⟩⟩ := by
  have hPipeQuote : isQuote '|' = false := by decide
  have hAngleQuote : isQuote '>' = false := by decide
  cases operator with
  | pipe =>
      have hText : Operator.pipe.text.toList = ['|'] := rfl
      simp [hText, read, hPipeQuote]
  | append =>
      have hText :
          Operator.append.text.toList = ['>', '>'] := rfl
      simp [hText, read, hAngleQuote]
  | overwrite =>
      have hText :
          Operator.overwrite.text.toList = ['>'] := rfl
      cases rest with
      | nil => simp [hText, read, hAngleQuote]
      | cons c rest =>
          have hNe : c ≠ '>' := by
            intro hEq
            exact hSingle rfl (by simp [hEq])
          simp [hText, read, hAngleQuote, hNe]

end Scan

namespace Pieces

/-
  Scanning a clean row of pieces collects its complete words
  and holds the bare word at its end.
-/
theorem read_text
    {pieces : Pieces}
    (hClean : IsClean pieces)
    (position : Nat)
    (rest : List Char) :
    Scan.read (.outside []) position
        (text pieces ++ rest) =
      (Scan.read (.outside (pending pieces).reverse)
          (position + Text.byteLength (text pieces))
          rest).map
        (Scan.prepend (complete pieces)) := by
  induction hClean generalizing position with
  | nil =>
      simp [pending, complete]
  | @space pieces hRest ih =>
      have hText :
          text (.space :: pieces) ++ rest =
            ' ' :: (text pieces ++ rest) := by
        rfl
      rw [hText, Scan.read_space, ih]
      have hSize : ' '.utf8Size = 1 := by decide
      simp [Scan.completed, pending, complete, Piece.text,
        Piece.words, hSize, Nat.add_assoc]
  | @quoted run body quote pieces hRun hQuote hBody hRest ih =>
      rw [text_cons, Piece.text]
      simp only [List.append_assoc, List.cons_append,
        List.nil_append]
      rw [Scan.read_run hRun, Scan.read_quote hQuote,
        Scan.read_body ⟨quote, _⟩ hBody, ih,
        Scan.map_prepend_prepend]
      simp [Scan.wordOf, pending, complete, Piece.words,
        Nat.add_assoc]
  | lastBare hSome hRun =>
      simp [text, Piece.text, Scan.read_run hRun, pending,
        complete]
  | @bare run pieces hSome hRun hRest ih =>
      have hText :
          text (.space :: pieces) ++ rest =
            ' ' :: (text pieces ++ rest) := by
        rfl
      rw [text_cons, List.append_assoc, Piece.text,
        Scan.read_run hRun, hText, Scan.read_word, ← hText,
        ih, Scan.map_prepend_prepend, List.append_nil,
        completed_reverse hSome]
      simp [pending, complete, Piece.words, Nat.add_assoc]

end Pieces

end LineShell

------------------------------------------------------------
-- Readings
------------------------------------------------------------

namespace LineShell

/-
  How a line is read: it is a clean row of pieces as a
  whole, or up to an operator, or up to a quote that does
  not occur again.
-/
inductive Reading
    (line : List Char) :
    Except UnclosedQuote Scan → Prop
  | clean
      {pieces : Pieces}
      (hClean : pieces.IsClean)
      (hLine : line = pieces.text) :
      Reading line (.ok ⟨pieces.yield, none⟩)
  | divided
      {pieces : Pieces}
      {operator : Operator}
      {rest : List Char}
      (hClean : pieces.IsClean)
      (hSingle :
        operator = .overwrite → rest.head? ≠ some '>')
      (hLine :
        line =
          pieces.text ++ (operator.text.toList ++ rest)) :
      Reading line
        (.ok ⟨pieces.complete,
          some ⟨operator, Text.byteLength pieces.text⟩⟩)
  | unclosed
      {pieces : Pieces}
      {quote : Char}
      {rest : List Char}
      (hClean : pieces.IsClean)
      (hQuote : isQuote quote = true)
      (hOpen : quote ∉ rest)
      (hLine : line = pieces.text ++ quote :: rest) :
      Reading line
        (.error ⟨quote, Text.byteLength pieces.text⟩)

namespace Reading

/- Scanning a line finds its reading. -/
theorem ofLine_eq
    {line : String}
    {result : Except UnclosedQuote Scan}
    (hReading : Reading line.toList result) :
    Scan.ofLine line = result := by
  unfold Scan.ofLine
  cases hReading with
  | clean hClean hLine =>
      have hRead := Pieces.read_text hClean 0 []
      rw [List.append_nil] at hRead
      rw [hLine, hRead, ← Pieces.complete_append_pending hClean]
      rfl
  | divided hClean hSingle hLine =>
      rw [hLine, Pieces.read_text hClean,
        Scan.read_operator hSingle]
      simp [Except.map, Scan.prepend]
  | unclosed hClean hQuote hOpen hLine =>
      rw [hLine, Pieces.read_text hClean,
        Scan.read_quote hQuote, Scan.read_unclosed hOpen]
      simp [Except.map]

/-
  Pieces that may stand in front of every clean row may
  stand in front of what is read.
-/
theorem exists_of_front
    (front : Pieces)
    {rest : List Char}
    (hFront :
      ∀ pieces : Pieces, pieces.IsClean →
        Pieces.IsClean (front ++ pieces))
    (hRest : ∃ result, Reading rest result) :
    ∃ result, Reading (front.text ++ rest) result := by
  rcases hRest with ⟨result, hReading⟩
  cases hReading with
  | @clean pieces hClean hLine =>
      refine ⟨_, clean (hFront pieces hClean) ?_⟩
      rw [hLine, Pieces.text_append]
  | @divided pieces operator rest hClean hSingle hLine =>
      refine ⟨_, divided (hFront pieces hClean) hSingle ?_⟩
      rw [hLine, Pieces.text_append, List.append_assoc]
  | @unclosed pieces quote rest hClean hQuote hOpen hLine =>
      refine
        ⟨_, unclosed (hFront pieces hClean) hQuote hOpen ?_⟩
      rw [hLine, Pieces.text_append, List.append_assoc]

/- A run of plain characters makes a clean row. -/
theorem exists_clean_of_run
    {run : List Char}
    (hRun : ∀ c ∈ run, IsPlain c) :
    ∃ pieces : Pieces,
      pieces.IsClean ∧ pieces.text = run := by
  by_cases hSome : run = []
  · exact ⟨[], .nil, hSome.symm⟩
  · refine ⟨[.bare run], .lastBare hSome hRun, ?_⟩
    simp [Piece.text]

/- A run of plain characters and a space behind it. -/
theorem exists_of_run_space
    {run rest : List Char}
    (hRun : ∀ c ∈ run, IsPlain c)
    (hRest : ∃ result, Reading rest result) :
    ∃ result, Reading (run ++ ' ' :: rest) result := by
  by_cases hSome : run = []
  · subst hSome
    exact exists_of_front [.space]
      (fun _ hClean => .space hClean) hRest
  · have hText :
        run ++ ' ' :: rest =
          Pieces.text [.bare run, .space] ++ rest := by
      simp [Piece.text]
    rw [hText]
    exact exists_of_front _
      (fun _ hClean => .bare hSome hRun (.space hClean))
      hRest

/- A run of plain characters and a quoted word behind it. -/
theorem exists_of_run_quoted
    {run body rest : List Char}
    {quote : Char}
    (hRun : ∀ c ∈ run, IsPlain c)
    (hQuote : isQuote quote = true)
    (hBody : quote ∉ body)
    (hRest : ∃ result, Reading rest result) :
    ∃ result,
      Reading (run ++ quote :: (body ++ quote :: rest))
        result := by
  have hText :
      run ++ quote :: (body ++ quote :: rest) =
        Pieces.text [.quoted run quote body] ++ rest := by
    simp [Piece.text]
  rw [hText]
  exact exists_of_front _
    (fun _ hClean => .quoted hRun hQuote hBody hClean) hRest

/- A run of plain characters and an operator behind it. -/
theorem exists_of_run_operator
    (operator : Operator)
    {run rest : List Char}
    (hRun : ∀ c ∈ run, IsPlain c)
    (hSingle :
      operator = .overwrite → rest.head? ≠ some '>') :
    ∃ result,
      Reading (run ++ (operator.text.toList ++ rest))
        result := by
  rcases exists_clean_of_run hRun with
    ⟨pieces, hClean, hText⟩
  exact ⟨_, divided hClean hSingle (by rw [hText])⟩

/- A line is a run of plain characters and what stops it. -/
theorem exists_run
    (line : List Char) :
    ∃ run rest,
      line = run ++ rest ∧ (∀ c ∈ run, IsPlain c) ∧
        ∀ c, rest.head? = some c → ¬ IsPlain c := by
  refine
    ⟨line.takeWhile (IsPlain ·), line.dropWhile (IsPlain ·),
      List.takeWhile_append_dropWhile.symm, ?_, ?_⟩
  · intro c hMem
    have hAll := List.all_takeWhile
      (p := fun c => decide (IsPlain c)) (l := line)
    exact of_decide_eq_true (List.all_eq_true.1 hAll c hMem)
  · intro c hHead
    have hStop := List.head?_dropWhile_not
      (fun c => decide (IsPlain c)) line
    rw [hHead] at hStop
    simpa using hStop

/- Every line has a reading. -/
theorem total
    (line : List Char) :
    ∃ result, Reading line result := by
  -- Each piece that is taken off leaves a shorter line.
  induction hLength : line.length
    using Nat.strongRecOn generalizing line with
  | ind length ih =>
      have shorter : ∀ tail : List Char,
          tail.length < length →
            ∃ result, Reading tail result := by
        intro tail hTail
        exact ih tail.length hTail tail rfl
      rcases exists_run line with
        ⟨run, rest, hLine, hRun, hStop⟩
      subst hLine
      cases rest with
      | nil =>
          rcases exists_clean_of_run hRun with
            ⟨pieces, hClean, hText⟩
          refine ⟨_, clean hClean ?_⟩
          rw [hText, List.append_nil]
      | cons c tail =>
          simp only [List.length_append,
            List.length_cons] at hLength
          have hNot : ¬ IsPlain c := hStop c rfl
          by_cases hQuote : isQuote c = true
          · by_cases hClosed : c ∈ tail
            · rcases List.eq_append_cons_of_mem hClosed with
                ⟨body, after, hTail, hBody⟩
              subst hTail
              simp only [List.length_append,
                List.length_cons] at hLength
              exact exists_of_run_quoted hRun hQuote hBody
                (shorter after (by omega))
            · rcases exists_clean_of_run hRun with
                ⟨pieces, hClean, hText⟩
              refine ⟨_, unclosed hClean hQuote hClosed ?_⟩
              rw [hText]
          by_cases hSpace : c = ' '
          · subst hSpace
            exact exists_of_run_space hRun
              (shorter tail (by omega))
          by_cases hPipe : c = '|'
          · subst hPipe
            exact exists_of_run_operator .pipe hRun
              (by simp)
          have hAngle : c = '>' := by
            apply Classical.byContradiction
            intro hAngle
            exact hNot ⟨hSpace, by simpa using hQuote, hPipe,
              hAngle⟩
          subst hAngle
          by_cases hDouble : tail.head? = some '>'
          · rcases List.head?_eq_some_iff.1 hDouble with
              ⟨after, hTail⟩
            subst hTail
            exact exists_of_run_operator .append hRun
              (by simp)
          · exact exists_of_run_operator .overwrite hRun
              (fun _ => hDouble)

end Reading

end LineShell

------------------------------------------------------------
-- The grammar of lines
------------------------------------------------------------

namespace LineShell

/- The characters of a line make a clean row of pieces. -/
def IsCleanText
    (line : List Char) : Prop :=
  ∃ pieces : Pieces,
    pieces.IsClean ∧ line = pieces.text

/- Clean text, then an operator, then anything. -/
def IsDividedText
    (line : List Char) : Prop :=
  ∃ (front rest : List Char) (operator : Operator),
    IsCleanText front ∧
      (operator = .overwrite → rest.head? ≠ some '>') ∧
        line = front ++ (operator.text.toList ++ rest)

/- Clean text, then a quote that does not occur again. -/
def IsUnclosedText
    (line : List Char) : Prop :=
  ∃ (front rest : List Char) (quote : Char),
    IsCleanText front ∧ isQuote quote = true ∧
      quote ∉ rest ∧ line = front ++ quote :: rest

namespace Scan

theorem ofLine_of_isCleanText
    {line : String}
    (hText : IsCleanText line.toList) :
    ∃ words, ofLine line = .ok ⟨words, none⟩ := by
  rcases hText with ⟨pieces, hClean, hLine⟩
  exact ⟨_, (Reading.clean hClean hLine).ofLine_eq⟩

theorem ofLine_of_isDividedText
    {line : String}
    (hText : IsDividedText line.toList) :
    ∃ words boundary,
      ofLine line = .ok ⟨words, some boundary⟩ := by
  rcases hText with
    ⟨front, rest, operator, ⟨pieces, hClean, hFront⟩,
      hSingle, hLine⟩
  subst hFront
  exact
    ⟨_, _, (Reading.divided hClean hSingle hLine).ofLine_eq⟩

theorem ofLine_of_isUnclosedText
    {line : String}
    (hText : IsUnclosedText line.toList) :
    ∃ fault, ofLine line = .error fault := by
  rcases hText with
    ⟨front, rest, quote, ⟨pieces, hClean, hFront⟩, hQuote,
      hOpen, hLine⟩
  subst hFront
  exact
    ⟨_, (Reading.unclosed hClean hQuote hOpen hLine).ofLine_eq⟩

/- A row of plain characters is one word. -/
theorem ofLine_of_plain
    {word : String}
    (hSome : word ≠ "")
    (hPlain : ∀ c ∈ word.toList, IsPlain c) :
    ofLine word = .ok ⟨[word], none⟩ := by
  have hChars : word.toList ≠ [] := by
    rw [ne_eq, String.toList_eq_nil_iff]
    exact hSome
  have hClean :
      Pieces.IsClean [.bare word.toList] :=
    .lastBare hChars hPlain
  have hYield :
      Pieces.yield [.bare word.toList] = [word] := by
    simp [Pieces.yield, Piece.words]
  rw [← hYield]
  exact
    (Reading.clean hClean
      (by simp [Pieces.text, Piece.text])).ofLine_eq

/- The scan of a line is a reading of it. -/
theorem ofLine_eq_iff
    (line : String)
    (result : Except UnclosedQuote Scan) :
    ofLine line = result ↔ Reading line.toList result := by
  constructor
  · intro hScan
    rcases Reading.total line.toList with ⟨other, hReading⟩
    rw [← hScan, hReading.ofLine_eq]
    exact hReading
  · exact Reading.ofLine_eq

/- Some text before the operator of a line is clean. -/
theorem exists_front_of_ofLine
    {line : String}
    {words : List String}
    {operator : Operator}
    {position : Nat}
    (hScan :
      ofLine line = .ok ⟨words, some ⟨operator, position⟩⟩) :
    ∃ (pieces : Pieces) (rest : List Char),
      pieces.IsClean ∧
        (operator = .overwrite → rest.head? ≠ some '>') ∧
        line.toList =
          pieces.text ++ (operator.text.toList ++ rest) ∧
        position = Text.byteLength pieces.text ∧
        words = pieces.complete := by
  cases (ofLine_eq_iff line _).1 hScan with
  | @divided pieces operator rest hClean hSingle hLine =>
      exact ⟨pieces, rest, hClean, hSingle, hLine, rfl, rfl⟩

end Scan

/-
  Scanning decides the grammar of lines. A line is clean, or
  divided by an operator, or left open by a quote, and only
  one of these; what the scan says of a line is its reading;
  and the operator that it reports is the first one outside
  quotes.
-/
theorem scan_decides_grammar
    (line : String) :
    ((IsCleanText line.toList ∧
          ¬ IsDividedText line.toList ∧
          ¬ IsUnclosedText line.toList) ∨
        (¬ IsCleanText line.toList ∧
          IsDividedText line.toList ∧
          ¬ IsUnclosedText line.toList) ∨
        (¬ IsCleanText line.toList ∧
          ¬ IsDividedText line.toList ∧
          IsUnclosedText line.toList)) ∧
      (∀ result,
        Scan.ofLine line = result ↔
          Reading line.toList result) ∧
      ∀ words operator position,
        Scan.ofLine line =
            .ok ⟨words, some ⟨operator, position⟩⟩ →
          ∃ (pieces : Pieces) (rest : List Char),
            pieces.IsClean ∧
              line.toList =
                pieces.text ++
                  (operator.text.toList ++ rest) ∧
              position = Text.byteLength pieces.text ∧
              ∀ c ∈ pieces.unquoted, c ≠ '|' ∧ c ≠ '>' := by
  have hClean := @Scan.ofLine_of_isCleanText line
  have hDivided := @Scan.ofLine_of_isDividedText line
  have hUnclosed := @Scan.ofLine_of_isUnclosedText line
  refine ⟨?_, Scan.ofLine_eq_iff line, ?_⟩
  · rcases Reading.total line.toList with
      ⟨result, hReading⟩
    have hScan := hReading.ofLine_eq
    rw [hScan] at hClean hDivided hUnclosed
    cases hReading with
    | clean hPieces hLine =>
        refine Or.inl ⟨⟨_, hPieces, hLine⟩, ?_, ?_⟩
        · intro hText
          simpa using hDivided hText
        · intro hText
          simpa using hUnclosed hText
    | divided hPieces hSingle hLine =>
        refine Or.inr (Or.inl
          ⟨?_, ⟨_, _, _, ⟨_, hPieces, rfl⟩, hSingle, hLine⟩,
            ?_⟩)
        · intro hText
          simpa using hClean hText
        · intro hText
          simpa using hUnclosed hText
    | unclosed hPieces hQuote hOpen hLine =>
        refine Or.inr (Or.inr
          ⟨?_, ?_, ⟨_, _, _, ⟨_, hPieces, rfl⟩, hQuote, hOpen,
            hLine⟩⟩)
        · intro hText
          simpa using hClean hText
        · intro hText
          simpa using hDivided hText
  · intro words operator position hScan
    rcases Scan.exists_front_of_ofLine hScan with
      ⟨pieces, rest, hPieces, _, hLine, hPosition, _⟩
    exact
      ⟨pieces, rest, hPieces, hLine, hPosition,
        fun c hMem =>
          Pieces.not_operator_of_mem_unquoted hPieces hMem⟩

end LineShell

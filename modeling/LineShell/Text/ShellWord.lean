/-
  This module writes words in such a way that a shell reads
  each of them back as one word. A word is cut into chunks,
  each as long as one style of quoting allows.

  Key definitions include:
    * `ShellWord.Style`
    * `ShellWord.quote`
    * `ShellWord.join?`
-/

namespace LineShell

namespace ShellWord

------------------------------------------------------------
-- Styles of quoting
------------------------------------------------------------

/- How a chunk of a word may be written. -/
inductive Style where
  | bare
  | single
  | double
deriving DecidableEq, Repr

namespace Style

/- The styles, the preferred one first. -/
def all : List Style :=
  [bare, single, double]

/-
  The characters that stand for themselves in a style. A
  caret is never among them, and single quotes hold no
  backslash, because shells disagree on what these mean.
-/
def allows :
    Style → Char → Bool
  | bare, c => c.isAlphanum || "+-./:@]_".toList.contains c
  | single, c =>
    !(['\x27', '^', '\\'] : List Char).contains c
  | double, c => !(['\x60', '$', '!', '^'] : List Char).contains c

/- A chunk as it is written in a style. -/
def render
    (style : Style)
    (chunk : List Char) : List Char :=
  match style with
  | bare => chunk
  | single => '\x27' :: chunk ++ ['\x27']
  | double =>
    '\x22' ::
      (chunk.flatMap fun c =>
        if c = '\x22' || c = '\\' then ['\\', c] else [c]) ++
      ['\x22']

end Style

------------------------------------------------------------
-- Chunks
------------------------------------------------------------

/-
  The beginning of a word that some of the given styles can
  write, the styles that can, and the rest of the word.
-/
def chunkFrom
    (styles : List Style) :
    List Char → List Char × List Style × List Char
  | [] => ([], styles, [])
  | c :: rest =>
    match styles.filter (·.allows c) with
    | [] => ([], styles, c :: rest)
    | allowed =>
      let (chunk, possible, others) := chunkFrom allowed rest
      (c :: chunk, possible, others)

/-
  The first chunk of a word. A caret is written right after
  an opening single quote and nowhere else.
-/
def firstChunk :
    List Char → List Char × List Style × List Char
  | '^' :: rest =>
    let (chunk, styles, others) := chunkFrom [.single] rest
    ('^' :: chunk, styles, others)
  | word => chunkFrom Style.all word

theorem length_chunkFrom
    (styles : List Style)
    (word : List Char) :
    (chunkFrom styles word).2.2.length ≤ word.length := by
  induction word generalizing styles with
  | nil => simp [chunkFrom]
  | cons c rest ih =>
    unfold chunkFrom
    split
    · simp
    · exact Nat.le_succ_of_le (ih _)

/- Every character is allowed in some style, the caret apart. -/
theorem filter_allows_ne_nil
    {c : Char}
    (h : c ≠ '^') :
    Style.all.filter (·.allows c) ≠ [] := by
  by_cases hQuote : c = '\x27' ∨ c = '\\'
  · rcases hQuote with rfl | rfl <;> decide
  · intro hNil
    have hSingle : Style.single.allows c = false := by
      simpa using List.filter_eq_nil_iff.1 hNil .single
        (by decide)
    simp [Style.allows, h] at hSingle
    exact hQuote (Decidable.or_iff_not_imp_left.2 hSingle)

/- The first chunk of a word is not empty. -/
theorem length_firstChunk
    (c : Char)
    (rest : List Char) :
    (firstChunk (c :: rest)).2.2.length < rest.length + 1 := by
  by_cases h : c = '^'
  · subst h
    exact Nat.lt_succ_of_le (length_chunkFrom _ _)
  · have hFirst : firstChunk (c :: rest) =
        chunkFrom Style.all (c :: rest) := by
      unfold firstChunk
      split
      · simp_all
      · rfl
    rw [hFirst]
    unfold chunkFrom
    split
    · exact absurd (by assumption) (filter_allows_ne_nil h)
    · exact Nat.lt_succ_of_le (length_chunkFrom _ _)

/- The chunks of a word, each as it is written. -/
def chunks :
    List Char → List Char
  | [] => []
  | c :: rest =>
    let first := firstChunk (c :: rest)
    (first.2.1.headD .bare).render first.1 ++
      chunks first.2.2
termination_by word => word.length
decreasing_by exact length_firstChunk c rest

/- A word as it is written. The empty word is two quotes. -/
def quote
    (word : String) : String :=
  if word = "" then
    "\x27\x27"
  else
    String.ofList (chunks word.toList)

/-
  Words as they are written, with spaces between them. No
  shell can be given a word that holds a NUL.
-/
def join?
    (words : List String) : Option String :=
  if words.any (·.toList.contains '\x00') then
    none
  else
    some (" ".intercalate (words.map quote))

end ShellWord

end LineShell

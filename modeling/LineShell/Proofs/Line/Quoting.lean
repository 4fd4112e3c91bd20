import LineShell.Line.Directive
import LineShell.Proofs.Line.Grammar

/-
  Words in quotes. A word without both kinds of quotes can be
  written between quotes of the other kind, and a line of
  such words is scanned back to them. No line is scanned to
  any other words.

  Key definitions include:
    * `HasBothQuotes`
    * `IsQuoted`
    * `IsQuotedRow`
    * `IsQuotedLine`

  Correctness is proven by:
    * `Pieces.not_hasBothQuotes_of_mem_yield`
    * `IsQuotedLine.ofLine_eq`
    * `scan_reads_quoted_words`
-/

------------------------------------------------------------
-- Quoted words
------------------------------------------------------------

namespace LineShell

/- Both kinds of quotes occur in a word. -/
def HasBothQuotes
    (word : String) : Prop :=
  singleQuote ∈ word.toList ∧ doubleQuote ∈ word.toList

/- A word as it is written between quotes that it lacks. -/
inductive IsQuoted
    (word : String) :
    List Char → Prop
  | between
      {quote : Char}
      (hQuote : isQuote quote = true)
      (hBody : quote ∉ word.toList) :
      IsQuoted word (quote :: (word.toList ++ [quote]))

/- Words in quotes with at least one space between any two. -/
inductive IsQuotedRow :
    List String → List Char → Prop
  | single
      {word : String}
      {text : List Char}
      (hWord : IsQuoted word text) :
      IsQuotedRow [word] text
  | cons
      {word : String}
      {words : List String}
      {text others : List Char}
      (gap : Nat)
      (hWord : IsQuoted word text)
      (hRow : IsQuotedRow words others) :
      IsQuotedRow (word :: words)
        (text ++ (List.replicate (gap + 1) ' ' ++ others))

/- Words in quotes with any number of spaces at the ends. -/
inductive IsQuotedLine :
    List String → List Char → Prop
  | blank
      (spaces : Nat) :
      IsQuotedLine [] (List.replicate spaces ' ')
  | row
      {words : List String}
      {text : List Char}
      (before after : Nat)
      (hRow : IsQuotedRow words text) :
      IsQuotedLine words
        (List.replicate before ' ' ++
          (text ++ List.replicate after ' '))

/- A word without both quotes can be written in quotes. -/
theorem exists_isQuoted
    {word : String}
    (hWord : ¬ HasBothQuotes word) :
    ∃ text, IsQuoted word text := by
  by_cases hSingle : singleQuote ∈ word.toList
  · have hDouble : doubleQuote ∉ word.toList := by
      intro hMem
      exact hWord ⟨hSingle, hMem⟩
    exact ⟨_, .between (by decide) hDouble⟩
  · exact ⟨_, .between (by decide) hSingle⟩

/- So can a row of such words. -/
theorem exists_isQuotedLine
    {words : List String}
    (hWords : ∀ word ∈ words, ¬ HasBothQuotes word) :
    ∃ text, IsQuotedLine words text := by
  have row : ∀ {words : List String},
      (∀ word ∈ words, ¬ HasBothQuotes word) →
        words ≠ [] → ∃ text, IsQuotedRow words text := by
    intro words hWords hSome
    induction words with
    | nil => exact absurd rfl hSome
    | cons word rest ih =>
        rcases List.forall_mem_cons.1 hWords with
          ⟨hWord, hOthers⟩
        rcases exists_isQuoted hWord with ⟨text, hText⟩
        by_cases hRest : rest = []
        · subst hRest
          exact ⟨text, .single hText⟩
        · rcases ih hOthers hRest with ⟨others, hRow⟩
          exact ⟨_, .cons 0 hText hRow⟩
  by_cases hSome : words = []
  · subst hSome
    exact ⟨_, .blank 0⟩
  · rcases row hWords hSome with ⟨text, hRow⟩
    exact ⟨_, .row 0 0 hRow⟩

end LineShell

------------------------------------------------------------
-- Words of clean rows
------------------------------------------------------------

namespace LineShell

namespace Pieces

/- A word that some quote does not occur in lacks one kind. -/
theorem not_hasBothQuotes_of_not_mem
    {word : String}
    {quote : Char}
    (hQuote : isQuote quote = true)
    (hWord : quote ∉ word.toList) :
    ¬ HasBothQuotes word := by
  rintro ⟨hSingle, hDouble⟩
  have hKinds : quote = singleQuote ∨ quote = doubleQuote := by
    simpa [isQuote] using hQuote
  rcases hKinds with rfl | rfl
  · exact hWord hSingle
  · exact hWord hDouble

/- No quote is a plain character. -/
theorem not_mem_of_plain
    {run : List Char}
    (hRun : ∀ c ∈ run, IsPlain c)
    {quote : Char}
    (hQuote : isQuote quote = true) :
    quote ∉ run := by
  intro hMem
  have hPlain := (hRun quote hMem).2.1
  rw [hQuote] at hPlain
  cases hPlain

/-
  No word of a clean row has both quotes: outside quotes
  there are none, and a body lacks the one that closes it.
-/
theorem not_hasBothQuotes_of_mem_yield
    {pieces : Pieces}
    (hClean : pieces.IsClean)
    {word : String}
    (hMem : word ∈ pieces.yield) :
    ¬ HasBothQuotes word := by
  have ofRun : ∀ {run : List Char},
      (∀ c ∈ run, IsPlain c) →
        ¬ HasBothQuotes (String.ofList run) := by
    intro run hRun
    have hSingle : isQuote singleQuote = true := by decide
    apply not_hasBothQuotes_of_not_mem hSingle
    rw [String.toList_ofList]
    exact not_mem_of_plain hRun hSingle
  induction hClean with
  | nil => cases hMem
  | space hRest ih => exact ih hMem
  | @quoted run body quote rest hRun hQuote hBody hRest ih =>
      rcases List.mem_append.1 hMem with hHere | hThere
      · rw [List.mem_singleton.1 hHere]
        apply not_hasBothQuotes_of_not_mem hQuote
        rw [String.toList_ofList, List.mem_append, not_or]
        exact ⟨not_mem_of_plain hRun hQuote, hBody⟩
      · exact ih hThere
  | lastBare hSome hRun =>
      rcases List.mem_append.1 hMem with hHere | hThere
      · rw [List.mem_singleton.1 hHere]
        exact ofRun hRun
      · cases hThere
  | bare hSome hRun hRest ih =>
      rcases List.mem_append.1 hMem with hHere | hThere
      · rw [List.mem_singleton.1 hHere]
        exact ofRun hRun
      · exact ih hThere

/- Spaces before a clean row add no word to it. -/
theorem exists_spaces
    (spaces : Nat)
    {pieces : Pieces}
    (hClean : pieces.IsClean) :
    ∃ spaced : Pieces,
      spaced.IsClean ∧
        spaced.text =
          List.replicate spaces ' ' ++ pieces.text ∧
        spaced.yield = pieces.yield := by
  induction spaces with
  | zero => exact ⟨pieces, hClean, rfl, rfl⟩
  | succ spaces ih =>
      rcases ih with ⟨spaced, hSpaced, hText, hYield⟩
      refine ⟨.space :: spaced, .space hSpaced, ?_, hYield⟩
      rw [text_cons, hText]
      rfl

/- A quoted word before a clean row is a piece of its own. -/
theorem exists_quoted
    {word : String}
    {text : List Char}
    (hWord : IsQuoted word text)
    {pieces : Pieces}
    (hClean : pieces.IsClean) :
    ∃ longer : Pieces,
      longer.IsClean ∧
        longer.text = text ++ pieces.text ∧
        longer.yield = word :: pieces.yield := by
  cases hWord with
  | @between quote hQuote hBody =>
      refine
        ⟨.quoted [] quote word.toList :: pieces,
          .quoted (by simp) hQuote hBody hClean, rfl, ?_⟩
      simp [yield, Piece.words]

/- A row of quoted words before a clean row adds its words. -/
theorem exists_row
    {words : List String}
    {text : List Char}
    (hRow : IsQuotedRow words text)
    {pieces : Pieces}
    (hClean : pieces.IsClean) :
    ∃ longer : Pieces,
      longer.IsClean ∧
        longer.text = text ++ pieces.text ∧
        longer.yield = words ++ pieces.yield := by
  induction hRow with
  | single hWord => exact exists_quoted hWord hClean
  | @cons word words text others gap hWord hRow ih =>
      rcases ih with ⟨row, hRowClean, hRowText, hRowYield⟩
      rcases exists_spaces (gap + 1) hRowClean with
        ⟨spaced, hSpaced, hSpacedText, hSpacedYield⟩
      rcases exists_quoted hWord hSpaced with
        ⟨longer, hLonger, hText, hYield⟩
      refine ⟨longer, hLonger, ?_, ?_⟩
      · rw [hText, hSpacedText, hRowText]
        simp only [List.append_assoc]
      · rw [hYield, hSpacedYield, hRowYield]
        rfl

end Pieces

end LineShell

------------------------------------------------------------
-- Reading quoted words
------------------------------------------------------------

namespace LineShell

namespace IsQuotedLine

/- A line of quoted words is clean and yields these words. -/
theorem exists_pieces
    {words : List String}
    {text : List Char}
    (hLine : IsQuotedLine words text) :
    ∃ pieces : Pieces,
      pieces.IsClean ∧
        pieces.text = text ∧ pieces.yield = words := by
  cases hLine with
  | blank spaces =>
      rcases Pieces.exists_spaces spaces .nil with
        ⟨pieces, hClean, hText, hYield⟩
      rw [Pieces.text_nil, List.append_nil] at hText
      exact ⟨pieces, hClean, hText, hYield⟩
  | row before after hRow =>
      rcases Pieces.exists_spaces after .nil with
        ⟨last, hLast, hLastText, hLastYield⟩
      rcases Pieces.exists_row hRow hLast with
        ⟨row, hRowClean, hRowText, hRowYield⟩
      rcases Pieces.exists_spaces before hRowClean with
        ⟨pieces, hClean, hText, hYield⟩
      refine ⟨pieces, hClean, ?_, ?_⟩
      · rw [hText, hRowText, hLastText, Pieces.text_nil,
          List.append_nil]
      · rw [hYield, hRowYield, hLastYield]
        exact List.append_nil words

/- A line of quoted words is scanned back to these words. -/
theorem ofLine_eq
    {words : List String}
    {line : String}
    (hLine : IsQuotedLine words line.toList) :
    Scan.ofLine line = .ok ⟨words, none⟩ := by
  rcases hLine.exists_pieces with
    ⟨pieces, hClean, hText, rfl⟩
  exact (Reading.clean hClean hText.symm).ofLine_eq

end IsQuotedLine

/- The words of a line without an operator lack a quote. -/
theorem not_hasBothQuotes_of_ofLine
    {line : String}
    {words : List String}
    (hScan : Scan.ofLine line = .ok ⟨words, none⟩)
    {word : String}
    (hMem : word ∈ words) :
    ¬ HasBothQuotes word := by
  cases (Scan.ofLine_eq_iff line _).1 hScan with
  | clean hClean hLine =>
      exact Pieces.not_hasBothQuotes_of_mem_yield hClean hMem

/- The directive of a line without an operator. -/
theorem Directive.ofLine_of_words
    {line : String}
    {words : List String}
    (hScan : Scan.ofLine line = .ok ⟨words, none⟩)
    (registered : String → Bool) :
    Directive.ofLine registered line =
      .ok (Directive.ofWords registered words) := by
  rw [Directive.ofLine, hScan]
  rfl

/-
  The words that lines without an operator are scanned to
  are those of which none has both quotes. Each such row of
  words can be written in quotes, and however it is written,
  with whatever quotes and spaces, the line is scanned back
  to it: it asks for nothing, or the first word is the name
  of a command and the other ones are its arguments.
-/
theorem scan_reads_quoted_words :
    (∀ words,
      (∃ line, Scan.ofLine line = .ok ⟨words, none⟩) ↔
        ∀ word ∈ words, ¬ HasBothQuotes word) ∧
      (∀ words,
        (∀ word ∈ words, ¬ HasBothQuotes word) →
          ∃ text, IsQuotedLine words text) ∧
      ∀ words (line : String),
        IsQuotedLine words line.toList →
          Scan.ofLine line = .ok ⟨words, none⟩ ∧
            ∀ registered,
              Directive.ofLine registered line =
                .ok
                  (match words with
                  | [] => .empty
                  | name :: args =>
                    if registered name then
                      .simple name args
                    else
                      .unregistered name args) := by
  refine ⟨?_, fun _ hWords => exists_isQuotedLine hWords, ?_⟩
  · intro words
    constructor
    · rintro ⟨line, hScan⟩ word hMem
      exact not_hasBothQuotes_of_ofLine hScan hMem
    · intro hWords
      rcases exists_isQuotedLine hWords with ⟨text, hText⟩
      refine ⟨String.ofList text, IsQuotedLine.ofLine_eq ?_⟩
      rw [String.toList_ofList]
      exact hText
  · intro words line hLine
    have hScan := hLine.ofLine_eq
    refine ⟨hScan, ?_⟩
    intro registered
    rw [Directive.ofLine_of_words hScan registered]
    cases words <;> rfl

end LineShell

import LineShell.Toml.Text
import LineShell.Toml.Writer

/-
  Strings of documents. In whichever shape a string is
  written, it is read back as it was, and the reader stops
  behind its closing quotes.

  Correctness is proven by:
    * `Toml.readBasic_writeBasic`
    * `Toml.readLongBasic_writeBasic`
    * `Toml.readLiteral_of_plain`
    * `Toml.readLongLiteral_of_plain`
    * `Toml.readString_writeString`
-/

------------------------------------------------------------
-- Characters with a code
------------------------------------------------------------

namespace LineShell

namespace Toml

/- A control is found again under its code. -/
theorem exists_codeDigits
    {c : Char}
    (hCode : needsCode c = true) :
    ∃ first second third fourth,
      codeDigits c = [first, second, third, fourth] ∧
        hexChar? [first, second, third, fourth] =
          some c := by
  have hAll :
      ∀ n < 0x80,
        needsCode (Char.ofNat n) = true →
          codeDigits (Char.ofNat n) =
              ['0', '0',
                (codeDigits (Char.ofNat n)).getD 2 '0',
                (codeDigits (Char.ofNat n)).getD 3 '0'] ∧
            hexChar? (codeDigits (Char.ofNat n)) =
              some (Char.ofNat n) := by
    decide +kernel
  have hSmall : c.toNat < 0x80 := by
    simp only [needsCode, Bool.and_eq_true, Bool.or_eq_true,
      decide_eq_true_eq] at hCode
    omega
  have hChar := hAll c.toNat hSmall
  rw [Char.ofNat_toNat] at hChar
  rcases hChar hCode with ⟨hDigits, hRead⟩
  rw [hDigits] at hRead
  exact ⟨_, _, _, _, hDigits, hRead⟩

/- What needs no code is plain, or it is a newline. -/
theorem isPlain_of_not_needsCode
    {c : Char}
    (hCode : needsCode c = false)
    (hNewline : c ≠ '\n') :
    isPlain c = true := by
  by_cases hTab : c = '\t'
  · subst hTab
    rfl
  · simpa [needsCode, isPlain, hTab, hNewline] using hCode

theorem withChar_some
    (c : Char)
    (others rest : List Char) :
    withChar c (some (others, rest)) =
      some (c :: others, rest) :=
  rfl

/-
  The ways in which a character is written: as it is, with a
  short escape, or with its code.
-/
inductive IsWritten
    (long : Bool)
    (c : Char) :
    List Char → Prop where
  | plain
      (hPlain : isPlain c = true)
      (hEscape : c ≠ '\\') :
      IsWritten long c [c]
  | newline
      (hLong : long = true)
      (hNewline : c = '\n') :
      IsWritten long c ['\n']
  | short
      {mark : Char}
      (hShort : shortEscape? mark = some c)
      (hMark : mark ≠ 'u' ∧ mark ≠ 'U') :
      IsWritten long c ['\\', mark]
  | code
      {first second third fourth : Char}
      (hCode :
        hexChar? [first, second, third, fourth] = some c) :
      IsWritten long c
        ['\\', 'u', first, second, third, fourth]

/- Every character is written in one of these ways. -/
theorem isWritten_writeChar
    (long : Bool)
    (c : Char) :
    IsWritten long c (writeChar long c) := by
  unfold writeChar
  split
  case h_3 =>
    cases long with
    | true => exact .newline rfl rfl
    | false => exact .short rfl (by decide)
  case h_7 hBack hTab hNewline hFeed hReturn hEscape =>
    cases hCode : needsCode c with
    | true =>
        rcases exists_codeDigits hCode with
          ⟨first, second, third, fourth, hDigits, hRead⟩
        rw [hDigits]
        exact .code hRead
    | false =>
        exact .plain
          (isPlain_of_not_needsCode hCode hNewline) hEscape
  all_goals exact .short rfl (by decide)

/- Nothing but a quote is written with a quote first. -/
theorem IsWritten.head?_ne_quote
    {long : Bool}
    {c : Char}
    {chars : List Char}
    (hWritten : IsWritten long c chars)
    (hQuote : c ≠ '\x22')
    (tail : List Char) :
    (chars ++ tail).head? ≠ some '\x22' := by
  cases hWritten <;> simp_all

/-
  A text does not begin with a quote where no more quotes
  may stand as they are.
-/
theorem head?_writeBasic
    (long : Bool)
    {limit run : Nat}
    {chars : List Char}
    (hFull : limit ≤ run ∨ chars.head? ≠ some '\x22')
    (hSome : chars ≠ [])
    (tail : List Char) :
    (writeBasic long limit run chars ++ tail).head? ≠
      some '\x22' := by
  cases chars with
  | nil => exact absurd rfl hSome
  | cons c others =>
      unfold writeBasic
      by_cases hQuote : c = '\x22'
      · subst hQuote
        have hLimit : ¬ run < limit := by
          rcases hFull with hFull | hHead
          · exact Nat.not_lt.2 hFull
          · exact absurd rfl hHead
        rw [if_pos rfl, if_neg hLimit]
        simp
      · rw [if_neg hQuote, List.append_assoc]
        exact (isWritten_writeChar long c).head?_ne_quote
          hQuote _

end Toml

end LineShell

------------------------------------------------------------
-- Double quotes in one line
------------------------------------------------------------

namespace LineShell

namespace Toml

/- A plain character is read as it is. -/
theorem readBasic_plain
    {c : Char}
    (hPlain : isPlain c = true)
    (hQuote : c ≠ '\x22')
    (hEscape : c ≠ '\\')
    (tail : List Char) :
    readBasic (c :: tail) = withChar c (readBasic tail) := by
  rw [readBasic.eq_def]
  split <;> simp_all

/- A character is read as it was written. -/
theorem readBasic_of_isWritten
    {c : Char}
    {chars : List Char}
    (hWritten : IsWritten false c chars)
    (hQuote : c ≠ '\x22')
    (tail : List Char) :
    readBasic (chars ++ tail) =
      withChar c (readBasic tail) := by
  cases hWritten with
  | plain hPlain hEscape =>
      exact readBasic_plain hPlain hQuote hEscape tail
  | newline hLong hNewline => cases hLong
  | short hShort hMark =>
      simp [readBasic, hShort, hMark.1, hMark.2]
  | code hCode =>
      simp only [List.cons_append, List.nil_append]
      rw [readBasic, hCode]
      rfl

/- What is written between double quotes is read back. -/
theorem readBasic_writeBasic
    (run : Nat)
    (chars rest : List Char) :
    readBasic (writeBasic false 0 run chars ++
        '\x22' :: rest) =
      some (chars, rest) := by
  induction chars generalizing run with
  | nil =>
      rw [writeBasic, List.nil_append, readBasic]
  | cons c others ih =>
      unfold writeBasic
      by_cases hQuote : c = '\x22'
      · subst hQuote
        rw [if_pos rfl, if_neg (Nat.not_lt_zero run)]
        simp [readBasic, shortEscape?, ih, withChar_some]
      · rw [if_neg hQuote, List.append_assoc,
          readBasic_of_isWritten
            (isWritten_writeChar false c) hQuote,
          ih, withChar_some]

end Toml

end LineShell

------------------------------------------------------------
-- Quotes in a row
------------------------------------------------------------

namespace LineShell

namespace Toml

/-
  A quote is read as it is when fewer than two more quotes
  follow.
-/
theorem readLongBasic_quote
    {tail : List Char}
    (hFew : ¬ ['\x22', '\x22'] <+: tail) :
    readLongBasic .text ('\x22' :: tail) =
      withChar '\x22' (readLongBasic .text tail) := by
  rw [readLongBasic.eq_def]
  split
  case h_10 hReturn hNewline hTriple hEscape hList =>
    cases hList
    simp [isPlain, isBlank]
  all_goals simp_all

theorem readLongBasic_of_isWritten
    {c : Char}
    {chars : List Char}
    (hWritten : IsWritten true c chars)
    (hQuote : c ≠ '\x22')
    (tail : List Char) :
    readLongBasic .text (chars ++ tail) =
      withChar c (readLongBasic .text tail) := by
  cases hWritten with
  | plain hPlain hEscape =>
      rw [List.singleton_append, readLongBasic.eq_def]
      split <;> simp_all [isPlain]
  | newline hLong hNewline => 
      subst hNewline
      rw [List.singleton_append, readLongBasic]
  | short hShort hMark =>
      simp [readLongBasic, hShort, hMark.1, hMark.2]
  | code hCode =>
      simp only [List.cons_append, List.nil_append]
      rw [readLongBasic, hCode]
      rfl

/-
  Up to two quotes in front of the closing ones belong to a
  string.
-/
theorem readLongBasic_closing
    {rest : List Char}
    (hRest : rest.head? ≠ some '\x22') :
    readLongBasic .text
          ('\x22' :: '\x22' :: '\x22' :: rest) =
        some ([], rest) ∧
      readLongBasic .text
          ('\x22' :: '\x22' :: '\x22' :: '\x22' :: rest) =
        some (['\x22'], rest) ∧
      readLongBasic .text
          ('\x22' :: '\x22' :: '\x22' :: '\x22' ::
            '\x22' :: rest) =
        some (['\x22', '\x22'], rest) := by
  cases rest with
  | nil => simp [readLongBasic]
  | cons c others =>
      have hQuote : c ≠ '\x22' := by
        rintro rfl
        exact hRest rfl
      simp [readLongBasic, hQuote]

/-
  Where a quote that stands as it is meets two more quotes,
  these are the closing ones or lead up to them.
-/
theorem eq_of_two_quotes
    {run : Nat}
    {chars tail : List Char}
    (hTwo :
      ['\x22', '\x22'] <+:
        writeBasic true 2 (run + 1) chars ++ tail) :
    chars = [] ∨ (run = 0 ∧ chars = ['\x22']) := by
  rcases hTwo with ⟨more, hMore⟩
  have hHead :
      (writeBasic true 2 (run + 1) chars ++ tail).head? =
        some '\x22' := by
    rw [← hMore]
    rfl
  by_cases hSome : chars = []
  · exact Or.inl hSome
  · have hFull :
        ¬ (2 ≤ run + 1 ∨ chars.head? ≠ some '\x22') := by
      intro hFull
      exact head?_writeBasic true hFull hSome tail hHead
    have hRun : run = 0 := by omega
    subst hRun
    cases chars with
    | nil => exact absurd rfl hSome
    | cons c others =>
        have hQuote : c = '\x22' := by
          simpa using hFull
        subst hQuote
        by_cases hOthers : others = []
        · exact Or.inr ⟨rfl, by rw [hOthers]⟩
        · have hNext :
              (writeBasic true 2 2 others ++ tail).head? =
                some '\x22' := by
            have hTail := congrArg List.tail hMore
            simp [writeBasic] at hTail
            rw [← hTail]
            rfl
          exact absurd hNext
            (head?_writeBasic true (Or.inl (Nat.le_refl 2))
              hOthers tail)

/- What is written between three double quotes is read back. -/
theorem readLongBasic_writeBasic
    (run : Nat)
    (chars : List Char)
    {rest : List Char}
    (hRest : rest.head? ≠ some '\x22') :
    readLongBasic .text
        (writeBasic true 2 run chars ++
          '\x22' :: '\x22' :: '\x22' :: rest) =
      some (chars, rest) := by
  induction chars generalizing run with
  | nil => exact (readLongBasic_closing hRest).1
  | cons c others ih =>
      unfold writeBasic
      by_cases hQuote : c = '\x22'
      · subst hQuote
        rw [if_pos rfl]
        by_cases hRun : run < 2
        · rw [if_pos hRun, List.cons_append]
          -- Only the closing quotes can make three in a row.
          by_cases hTwo :
              ['\x22', '\x22'] <+:
                writeBasic true 2 (run + 1) others ++
                  '\x22' :: '\x22' :: '\x22' :: rest
          · rcases eq_of_two_quotes hTwo with
              rfl | ⟨rfl, rfl⟩
            · exact (readLongBasic_closing hRest).2.1
            · exact (readLongBasic_closing hRest).2.2
          · rw [readLongBasic_quote hTwo, ih, withChar_some]
        · rw [if_neg hRun]
          simp [readLongBasic, shortEscape?, ih,
            withChar_some]
      · rw [if_neg hQuote, List.append_assoc,
          readLongBasic_of_isWritten
            (isWritten_writeChar true c) hQuote,
          ih, withChar_some]

end Toml

end LineShell

------------------------------------------------------------
-- Single quotes
------------------------------------------------------------

namespace LineShell

namespace Toml

/- What stands plainly between single quotes is read back. -/
theorem readLiteral_of_plain
    {chars : List Char}
    (hPlain :
      ∀ c ∈ chars, isPlain c = true ∧ c ≠ '\x27')
    (rest : List Char) :
    readLiteral (chars ++ '\x27' :: rest) =
      some (chars, rest) := by
  induction chars with
  | nil => rw [List.nil_append, readLiteral]
  | cons c others ih =>
      rcases List.forall_mem_cons.1 hPlain with
        ⟨⟨hChar, hQuote⟩, hOthers⟩
      have hStep :
          readLiteral (c :: (others ++ '\x27' :: rest)) =
            withChar c
              (readLiteral (others ++ '\x27' :: rest)) := by
        simp [readLiteral, hChar]
      rw [List.cons_append, hStep, ih hOthers, withChar_some]

/-
  A quote is read as it is when fewer than two more quotes
  follow.
-/
theorem readLongLiteral_quote
    {tail : List Char}
    (hFew : ¬ ['\x27', '\x27'] <+: tail) :
    readLongLiteral ('\x27' :: tail) =
      withChar '\x27' (readLongLiteral tail) := by
  rw [readLongLiteral.eq_def]
  split
  case h_6 hReturn hTriple hList =>
    cases hList
    simp [isPlain]
  all_goals simp_all

/- A character that stands plainly is read as it is. -/
theorem readLongLiteral_plain
    {c : Char}
    (hPlain : isPlain c = true ∨ c = '\n')
    (hQuote : c ≠ '\x27')
    (tail : List Char) :
    readLongLiteral (c :: tail) =
      withChar c (readLongLiteral tail) := by
  rw [readLongLiteral.eq_def]
  split
  case h_6 hReturn hTriple hList =>
    cases hList
    rw [if_pos hPlain]
  all_goals simp_all [isPlain]

/-
  Up to two quotes in front of the closing ones belong to a
  string.
-/
theorem readLongLiteral_closing
    {rest : List Char}
    (hRest : rest.head? ≠ some '\x27') :
    readLongLiteral
          ('\x27' :: '\x27' :: '\x27' :: rest) =
        some ([], rest) ∧
      readLongLiteral
          ('\x27' :: '\x27' :: '\x27' :: '\x27' :: rest) =
        some (['\x27'], rest) ∧
      readLongLiteral
          ('\x27' :: '\x27' :: '\x27' :: '\x27' ::
            '\x27' :: rest) =
        some (['\x27', '\x27'], rest) := by
  cases rest with
  | nil => simp [readLongLiteral]
  | cons c others =>
      have hQuote : c ≠ '\x27' := by
        rintro rfl
        exact hRest rfl
      simp [readLongLiteral, hQuote]

/- A run that has begun counts for the longest one. -/
theorem le_longestRun
    (quote : Char)
    (run : Nat)
    (chars : List Char) :
    run ≤ longestRun quote run chars := by
  induction chars generalizing run with
  | nil => exact Nat.le_refl run
  | cons c others ih =>
      unfold longestRun
      split
      · exact Nat.le_trans (Nat.le_succ run) (ih (run + 1))
      · exact Nat.le_max_left ..

theorem longestRun_quote
    (quote : Char)
    (run : Nat)
    (others : List Char) :
    longestRun quote run (quote :: others) =
      longestRun quote (run + 1) others := by
  rw [longestRun, if_pos rfl]

/-
  Where no run is longer than two, a quote that meets two
  more quotes is followed by the closing ones, or leads up
  to them.
-/
theorem eq_of_two_quotes_of_longestRun
    {run : Nat}
    {chars tail : List Char}
    (hRun : longestRun '\x27' (run + 1) chars ≤ 2)
    (hTwo : ['\x27', '\x27'] <+: chars ++ tail) :
    chars = [] ∨ chars = ['\x27'] := by
  cases chars with
  | nil => exact Or.inl rfl
  | cons c others =>
      simp only [List.cons_append, List.cons_prefix_cons]
        at hTwo
      rcases hTwo with ⟨rfl, hNext⟩
      rw [longestRun_quote] at hRun
      cases others with
      | nil => exact Or.inr rfl
      | cons d more =>
          simp only [List.cons_append,
            List.cons_prefix_cons] at hNext
          rcases hNext with ⟨rfl, hNil⟩
          rw [longestRun_quote] at hRun
          have hLeast :=
            le_longestRun '\x27' (run + 1 + 1 + 1) more
          omega

/-
  What stands plainly between three single quotes is read
  back.
-/
theorem readLongLiteral_of_plain
    {run : Nat}
    {chars rest : List Char}
    (hRun : longestRun '\x27' run chars ≤ 2)
    (hPlain : ∀ c ∈ chars, isPlain c = true ∨ c = '\n')
    (hRest : rest.head? ≠ some '\x27') :
    readLongLiteral
        (chars ++ '\x27' :: '\x27' :: '\x27' :: rest) =
      some (chars, rest) := by
  induction chars generalizing run with
  | nil => exact (readLongLiteral_closing hRest).1
  | cons c others ih =>
      rcases List.forall_mem_cons.1 hPlain with
        ⟨hFirst, hOthers⟩
      by_cases hQuote : c = '\x27'
      · subst hQuote
        rw [longestRun_quote] at hRun
        -- Only the closing quotes can make three in a row.
        by_cases hTwo :
            ['\x27', '\x27'] <+:
              others ++ '\x27' :: '\x27' :: '\x27' :: rest
        · rcases eq_of_two_quotes_of_longestRun hRun hTwo with
            rfl | rfl
          · exact (readLongLiteral_closing hRest).2.1
          · exact (readLongLiteral_closing hRest).2.2
        · rw [List.cons_append, readLongLiteral_quote hTwo,
            ih hRun hOthers, withChar_some]
      · have hNext : longestRun '\x27' 0 others ≤ 2 := by
          rw [longestRun, if_neg hQuote] at hRun
          omega
        rw [List.cons_append,
          readLongLiteral_plain hFirst hQuote,
          ih hNext hOthers, withChar_some]

end Toml

end LineShell

------------------------------------------------------------
-- Strings in their shapes
------------------------------------------------------------

namespace LineShell

namespace Toml

/- Single quotes are for what they show plainly. -/
theorem Shape.showsPlainly_of_single
    {chars : List Char}
    {shape : Shape}
    (hShape : ofText chars = shape)
    (hSingle : shape = literal ∨ shape = longLiteral) :
    shape.showsPlainly chars = true := by
  unfold ofText at hShape
  split at hShape
  case h_1 found hFound =>
    subst hShape
    have hShows := List.find?_some hFound
    exact hShows
  case h_2 hNone =>
    split at hShape <;> subst hShape <;> simp at hSingle

/- Without a newline at its start a text stays as it is. -/
theorem skipNewline_of_head?
    {chars : List Char}
    (hHead :
      ∀ c, chars.head? = some c → c ≠ '\n' ∧ c ≠ '\r') :
    skipNewline chars = chars := by
  unfold skipNewline
  split
  case h_1 rest => exact absurd rfl (hHead _ rfl).1
  case h_2 rest => exact absurd rfl (hHead _ rfl).2
  case h_3 => rfl

/-
  A long string begins on a line of its own if it has more
  than one, and else where it is.
-/
def startOf
    (chars : List Char) : List Char :=
  if '\n' ∈ chars then ['\n'] else []

/- The start of a long string is skipped. -/
theorem skipNewline_startOf
    {chars body : List Char}
    (hBody :
      '\n' ∉ chars →
        ∀ c, body.head? = some c → c ≠ '\n' ∧ c ≠ '\r') :
    skipNewline (startOf chars ++ body) = body := by
  unfold startOf
  split
  case isTrue hNewline => rfl
  case isFalse hNone =>
    rw [List.nil_append]
    exact skipNewline_of_head? (hBody hNone)

/- What is plain is no newline and no return. -/
theorem ne_newline_of_isPlain
    {c : Char}
    (hPlain : isPlain c = true) :
    c ≠ '\n' ∧ c ≠ '\r' := by
  constructor
  · rintro rfl
    exact absurd hPlain (by decide)
  · rintro rfl
    exact absurd hPlain (by decide)

/- Where no newline is written, none stands first. -/
theorem head?_writeBasic_ne_newline
    {chars tail : List Char}
    (hNone : '\n' ∉ chars)
    {c : Char}
    (hHead :
      (writeBasic true 2 0 chars ++ '\x22' :: tail).head? =
        some c) :
    c ≠ '\n' ∧ c ≠ '\r' := by
  cases chars with
  | nil =>
      cases hHead
      decide
  | cons first others =>
      by_cases hQuote : first = '\x22'
      · subst hQuote
        cases hHead
        decide
      · rw [writeBasic, if_neg hQuote] at hHead
        have hWritten := isWritten_writeChar true first
        generalize writeChar true first = written
          at hHead hWritten
        cases hWritten with
        | plain hPlain hEscape =>
            cases hHead
            exact ne_newline_of_isPlain hPlain
        | newline hLong hNewline =>
            subst hNewline
            exact absurd (List.mem_cons_self ..) hNone
        | short hShort hMark =>
            cases hHead
            decide
        | code hCode =>
            cases hHead
            decide

/- A text behind which no quote follows. -/
def IsUnquoted
    (rest : List Char) : Prop :=
  rest.head? ≠ some '\x22' ∧ rest.head? ≠ some '\x27'

theorem head?_of_two_prefix
    {quote : Char}
    {chars : List Char}
    (hTwo : [quote, quote] <+: chars) :
    chars.head? = some quote ∧
      chars.tail.head? = some quote := by
  rcases hTwo with ⟨more, rfl⟩
  exact ⟨rfl, rfl⟩

theorem readString_double
    {tail : List Char}
    (hFew : ¬ ['\x22', '\x22'] <+: tail) :
    readString ('\x22' :: tail) = readBasic tail := by
  unfold readString
  split <;> simp_all

theorem readString_single
    {tail : List Char}
    (hFew : ¬ ['\x27', '\x27'] <+: tail) :
    readString ('\x27' :: tail) = readLiteral tail := by
  unfold readString
  split <;> simp_all

/- A text between single double quotes is read back. -/
theorem readString_basic
    (chars : List Char)
    {rest : List Char}
    (hRest : IsUnquoted rest) :
    readString
        ('\x22' ::
          (writeBasic false 0 0 chars ++ '\x22' :: rest)) =
      some (chars, rest) := by
  rw [readString_double, readBasic_writeBasic]
  intro hTwo
  rcases head?_of_two_prefix hTwo with ⟨hFirst, hSecond⟩
  by_cases hSome : chars = []
  · subst hSome
    exact hRest.1 hSecond
  · exact head?_writeBasic false (Or.inl (Nat.le_refl 0))
      hSome _ hFirst

/- A text between single quotes is read back. -/
theorem readString_literal
    {chars rest : List Char}
    (hRest : IsUnquoted rest)
    (hShows : Shape.literal.showsPlainly chars = true) :
    readString ('\x27' :: (chars ++ '\x27' :: rest)) =
      some (chars, rest) := by
  have hPlain :
      ∀ c ∈ chars, isPlain c = true ∧ c ≠ '\x27' := by
    have hParts :
        (∀ c ∈ chars, needsCode c = false) ∧
          '\n' ∉ chars ∧ '\x27' ∉ chars := by
      simpa [Shape.showsPlainly] using hShows
    rcases hParts with ⟨hCodes, hNewline, hQuote⟩
    intro c hMem
    constructor
    · apply isPlain_of_not_needsCode (hCodes c hMem)
      rintro rfl
      exact hNewline hMem
    · rintro rfl
      exact hQuote hMem
  rw [readString_single, readLiteral_of_plain hPlain]
  intro hTwo
  rcases head?_of_two_prefix hTwo with ⟨hFirst, hSecond⟩
  cases chars with
  | nil => exact hRest.2 hSecond
  | cons c others =>
      cases hFirst
      exact (hPlain _ (List.mem_cons_self ..)).2 rfl

/- A text between three double quotes is read back. -/
theorem readString_longBasic
    (chars : List Char)
    {rest : List Char}
    (hRest : IsUnquoted rest) :
    readString
        ('\x22' :: '\x22' :: '\x22' ::
          (startOf chars ++
            (writeBasic true 2 0 chars ++
              '\x22' :: '\x22' :: '\x22' :: rest))) =
      some (chars, rest) := by
  have hStart :
      skipNewline
          (startOf chars ++
            (writeBasic true 2 0 chars ++
              '\x22' :: '\x22' :: '\x22' :: rest)) =
        writeBasic true 2 0 chars ++
          '\x22' :: '\x22' :: '\x22' :: rest := by
    apply skipNewline_startOf
    intro hNone c hHead
    exact head?_writeBasic_ne_newline hNone hHead
  rw [readString, hStart]
  exact readLongBasic_writeBasic 0 chars hRest.1

/- A text between three single quotes is read back. -/
theorem readString_longLiteral
    {chars rest : List Char}
    (hRest : IsUnquoted rest)
    (hShows : Shape.longLiteral.showsPlainly chars = true) :
    readString
        ('\x27' :: '\x27' :: '\x27' ::
          (startOf chars ++
            (chars ++
              '\x27' :: '\x27' :: '\x27' :: rest))) =
      some (chars, rest) := by
  have hParts :
      (∀ c ∈ chars, needsCode c = false) ∧
        longestRun '\x27' 0 chars ≤ 2 := by
    simpa [Shape.showsPlainly] using hShows
  rcases hParts with ⟨hCodes, hRun⟩
  have hPlain :
      ∀ c ∈ chars, isPlain c = true ∨ c = '\n' := by
    intro c hMem
    by_cases hNewline : c = '\n'
    · exact Or.inr hNewline
    · exact Or.inl
        (isPlain_of_not_needsCode (hCodes c hMem) hNewline)
  have hStart :
      skipNewline
          (startOf chars ++
            (chars ++
              '\x27' :: '\x27' :: '\x27' :: rest)) =
        chars ++ '\x27' :: '\x27' :: '\x27' :: rest := by
    apply skipNewline_startOf
    intro hNone c hHead
    cases chars with
    | nil =>
        cases hHead
        decide
    | cons first others =>
        cases hHead
        rcases hPlain _ (List.mem_cons_self ..) with
          hFirst | rfl
        · exact ne_newline_of_isPlain hFirst
        · exact absurd (List.mem_cons_self ..) hNone
  rw [readString, hStart]
  exact readLongLiteral_of_plain hRun hPlain hRest.2

/-
  A string is read back from what is written for it, with
  what follows its closing quotes as the rest.
-/
theorem readString_writeString
    (text : String)
    {rest : List Char}
    (hRest : IsUnquoted rest) :
    readString ((writeString text).toList ++ rest) =
      some (text.toList, rest) := by
  unfold writeString
  dsimp only
  rw [String.toList_ofList]
  cases hShape : Shape.ofText text.toList with
  | basic =>
      have hRead :=
        readString_basic text.toList hRest
      simpa [Shape.delimiter, Shape.isLong, writeBody]
        using hRead
  | literal =>
      have hRead :=
        readString_literal hRest
          (Shape.showsPlainly_of_single hShape (Or.inl rfl))
      simpa [Shape.delimiter, Shape.isLong, writeBody]
        using hRead
  | longBasic =>
      have hRead :=
        readString_longBasic text.toList hRest
      simpa [Shape.delimiter, Shape.isLong, writeBody,
        startOf] using hRead
  | longLiteral =>
      have hRead :=
        readString_longLiteral hRest
          (Shape.showsPlainly_of_single hShape (Or.inr rfl))
      simpa [Shape.delimiter, Shape.isLong, writeBody,
        startOf] using hRead

end Toml

end LineShell

import LineShell.Toml.Statement

/-
  Numbers of documents. The decimal digits of a count at the
  end of a line are neither a date nor a fraction, and the
  count is read back from them if it has sixty-four bits.

  Key definitions include:
    * `Toml.IsDecimal`

  Correctness is proven by:
    * `Toml.isDecimal_toString`
    * `Toml.skipDateTime_digits`
    * `Toml.skipFraction_digits`
    * `Toml.readScalar_digits`
-/

------------------------------------------------------------
-- Rows of digits
------------------------------------------------------------

namespace LineShell

namespace Toml

/- The value of a decimal digit. -/
def valueOf
    (c : Char) : Nat :=
  c.toNat - '0'.toNat

theorem digit?_of_isDigit
    {c : Char}
    (hDigit : c.isDigit = true) :
    digit? 10 c = some (valueOf c) := by
  have hBounds : '0' ≤ c ∧ c ≤ '9' := by
    simpa [Char.isDigit, Char.le_def] using hDigit
  have hMost : c.toNat ≤ '9'.toNat := by
    exact hBounds.2
  have hSmall : valueOf c < 10 := by
    have hNine : '9'.toNat = 57 := rfl
    have hZero : '0'.toNat = 48 := rfl
    unfold valueOf
    omega
  unfold digit? hexDigit?
  rw [if_pos hBounds, Option.filter_some]
  exact if_pos (decide_eq_true hSmall)

theorem moreDigits_digit
    {c : Char}
    (hDigit : c.isDigit = true)
    (tail : List Char) :
    moreDigits 10 (c :: tail) =
      (valueOf c :: (moreDigits 10 tail).1,
        (moreDigits 10 tail).2) := by
  rw [moreDigits.eq_def]
  split
  case h_1 hList =>
    cases hList
    cases hDigit
  case h_2 hUnderscore hList =>
    cases hList
    rw [digit?_of_isDigit hDigit]
  case h_3 hList => cases hList

variable
    {digits : List Char}
    (hDigits : ∀ c ∈ digits, c.isDigit = true)
    (rest : List Char)

include hDigits

/- Digits are read up to the end of their line. -/
theorem moreDigits_digits :
    moreDigits 10 (digits ++ '\n' :: rest) =
      (digits.map valueOf, '\n' :: rest) := by
  induction digits with
  | nil => rfl
  | cons c others ih =>
      rcases List.forall_mem_cons.1 hDigits with
        ⟨hDigit, hOthers⟩
      rw [List.cons_append, moreDigits_digit hDigit,
        ih hOthers, List.map_cons]

theorem readDigits_digits
    (hSome : digits ≠ []) :
    readDigits 10 (digits ++ '\n' :: rest) =
      some (digits.map valueOf, '\n' :: rest) := by
  cases digits with
  | nil => exact absurd rfl hSome
  | cons c others =>
      rcases List.forall_mem_cons.1 hDigits with
        ⟨hDigit, hOthers⟩
      simp [readDigits, digit?_of_isDigit hDigit,
        moreDigits_digits hOthers]

omit hDigits in
/- The value of digits does not depend on who reads them. -/
theorem numberOf_map_valueOf :
    numberOf 10 (digits.map valueOf) =
      Nat.ofDigitChars 10 digits 0 := by
  rw [numberOf, Nat.ofDigitChars_eq_foldl, List.foldl_map]
  congr 1
  funext number c
  rw [Nat.mul_comm, valueOf]

end Toml

end LineShell

------------------------------------------------------------
-- Decimal digits of a count
------------------------------------------------------------

namespace LineShell

namespace Toml

/-
  Characters are the decimal digits of a count: there is at
  least one, and none is a zero in front of others.
-/
structure IsDecimal
    (count : Nat)
    (digits : List Char) : Prop where
  isDigit : ∀ c ∈ digits, c.isDigit = true
  ne_nil : digits ≠ []
  value : Nat.ofDigitChars 10 digits 0 = count
  zero_alone : digits.head? = some '0' → digits = ['0']

/- Only zero is written with a zero first. -/
theorem eq_zero_of_head?_toDigits
    {count : Nat}
    (hHead : (Nat.toDigits 10 count).head? = some '0') :
    count = 0 := by
  induction count using Nat.strongRecOn with
  | ind count ih =>
      by_cases hSmall : count < 10
      · rw [Nat.toDigits_of_lt_base hSmall] at hHead
        simpa using hHead
      · have hBase : 10 ≤ count := Nat.not_lt.1 hSmall
        rw [Nat.toDigits_of_base_le (by decide) hBase]
          at hHead
        have hFront :
            (Nat.toDigits 10 (count / 10)).head? =
              some '0' := by
          cases hDigits : Nat.toDigits 10 (count / 10) with
          | nil => exact absurd hDigits Nat.toDigits_ne_nil
          | cons first others =>
              rw [hDigits] at hHead
              exact hHead
        have hZero := ih (count / 10) (by omega) hFront
        omega

/- A count is written with its decimal digits. -/
theorem isDecimal_toString
    (count : Nat) :
    IsDecimal count (toString count).toList := by
  rw [Nat.toString_eq_ofList_toDigits, String.toList_ofList]
  constructor
  · intro c hMem
    exact Nat.isDigit_of_mem_toDigits (by decide)
      (by decide) hMem
  · exact Nat.toDigits_ne_nil
  · exact Nat.ofDigitChars_ten_toDigits
  · intro hHead
    rw [eq_zero_of_head?_toDigits hHead]
    rfl

variable
    {count : Nat}
    {digits : List Char}
    (hDecimal : IsDecimal count digits)
    (rest : List Char)

include hDecimal

theorem IsDecimal.exists_cons :
    ∃ first others,
      digits = first :: others ∧ first.isDigit = true := by
  cases digits with
  | nil => exact absurd rfl hDecimal.ne_nil
  | cons first others =>
      exact ⟨first, others, rfl,
        hDecimal.isDigit first (List.mem_cons_self ..)⟩

/- The digits of a count are read as its digits. -/
theorem readDecimal_digits :
    ∃ values,
      readDecimal (digits ++ '\n' :: rest) =
          some (values, '\n' :: rest) ∧
        numberOf 10 values = count := by
  by_cases hZero : digits.head? = some '0'
  · have hAlone := hDecimal.zero_alone hZero
    have hValue := hDecimal.value
    subst hAlone
    exact ⟨[0], rfl, hValue⟩
  · refine ⟨digits.map valueOf, ?_, ?_⟩
    · rw [← readDigits_digits hDecimal.isDigit rest
        hDecimal.ne_nil]
      rcases hDecimal.exists_cons with
        ⟨first, others, rfl, hDigit⟩
      unfold readDecimal
      split
      case h_1 hList =>
        cases hList
        exact absurd rfl hZero
      case h_2 => rfl
    · rw [numberOf_map_valueOf]
      exact hDecimal.value

/- Digits have no sign. -/
theorem readSign_digits :
    readSign (digits ++ '\n' :: rest) =
      (false, digits ++ '\n' :: rest) := by
  rcases hDecimal.exists_cons with
    ⟨first, others, rfl, hDigit⟩
  unfold readSign
  split
  case h_1 hList =>
    cases hList
    cases hDigit
  case h_2 hList =>
    cases hList
    cases hDigit
  case h_3 => rfl

/- Digits at the end of a line are no fraction. -/
theorem skipFraction_digits :
    skipFraction (digits ++ '\n' :: rest) = none := by
  have hSign := readSign_digits hDecimal rest
  rcases readDecimal_digits hDecimal rest with
    ⟨values, hRead, hValue⟩
  have hDecimalFraction :
      skipDecimalFraction (digits ++ '\n' :: rest) =
        none := by
    simp [skipDecimalFraction, hSign, hRead, readExponent,
      readPlaces]
  have hNamed :
      skipNamedFraction (digits ++ '\n' :: rest) = none := by
    rw [skipNamedFraction, hSign]
    rcases hDecimal.exists_cons with
      ⟨first, others, rfl, hDigit⟩
    split
    case h_1 hList =>
      rcases List.cons.inj hList with ⟨rfl, hTail⟩
      cases hDigit
    case h_2 hList =>
      rcases List.cons.inj hList with ⟨rfl, hTail⟩
      cases hDigit
    case h_3 => rfl
  rw [skipFraction, hDecimalFraction, hNamed]
  rfl

end Toml

end LineShell

------------------------------------------------------------
-- Digits are no date
------------------------------------------------------------

namespace LineShell

namespace Toml

/- A pair that is read was the first two characters. -/
theorem exists_of_readPair
    {least greatest value : Nat}
    {chars after : List Char}
    (hRead :
      readPair least greatest chars = some (value, after)) :
    ∃ first second,
      chars = first :: second :: after ∧
        first.isDigit = true ∧ second.isDigit = true := by
  unfold readPair at hRead
  split at hRead
  case h_1 first second rest =>
    cases hFirst : first.isDigit with
    | false => simp [decimal?, hFirst] at hRead
    | true =>
        cases hSecond : second.isDigit with
        | false =>
            simp [decimal?, hFirst, hSecond] at hRead
        | true =>
            simp [decimal?, hFirst, hSecond] at hRead
            exact ⟨first, second, by rw [hRead.2.2], hFirst,
              hSecond⟩
  case h_2 => cases hRead

/- Within a row of digits it leaves a row of digits. -/
theorem eq_of_readPair
    {least greatest value : Nat}
    {digits rest after : List Char}
    (hRead :
      readPair least greatest (digits ++ '\n' :: rest) =
        some (value, after)) :
    after = digits.drop 2 ++ '\n' :: rest := by
  rcases exists_of_readPair hRead with
    ⟨first, second, hChars, hFirst, hSecond⟩
  cases digits with
  | nil =>
      cases hChars
      cases hFirst
  | cons c others =>
      cases others with
      | nil =>
          cases hChars
          cases hSecond
      | cons d more =>
          rcases List.cons.inj hChars with ⟨hC, hTail⟩
          exact (List.cons.inj hTail).2.symm

variable
    {digits : List Char}
    (hDigits : ∀ c ∈ digits, c.isDigit = true)
    (rest : List Char)

include hDigits

/- No mark stands in a row of digits. -/
theorem skipMark_digits
    {mark : Char}
    (hMark : mark.isDigit = false)
    (hNewline : mark ≠ '\n') :
    skipMark mark (digits ++ '\n' :: rest) = none := by
  cases digits with
  | nil =>
      rw [List.nil_append, skipMark, if_neg hNewline.symm]
  | cons c others =>
      have hOther : c ≠ mark := by
        rintro rfl
        rw [hDigits c (List.mem_cons_self ..)] at hMark
        cases hMark
      rw [List.cons_append, skipMark, if_neg hOther]

/- The digits of a year have to be followed by a dash. -/
theorem skipDate_digits :
    skipDate (digits ++ '\n' :: rest) = none := by
  unfold skipDate
  cases hCentury :
      readPair 0 99 (digits ++ '\n' :: rest) with
  | none => rfl
  | some century =>
      have hAfter := eq_of_readPair hCentury
      simp only [Option.bind_eq_bind, Option.bind_some]
      rw [hAfter]
      cases hYears :
          readPair 0 99 (digits.drop 2 ++ '\n' :: rest) with
      | none => rfl
      | some years =>
          -- Four digits are gone. A digit or the end of the
          -- line stands where the dash should be.
          have hLast := eq_of_readPair hYears
          have hOthers :
              ∀ c ∈ (digits.drop 2).drop 2,
                c.isDigit = true := by
            intro c hMem
            exact hDigits c
              (List.mem_of_mem_drop (List.mem_of_mem_drop hMem))
          simp only [Option.bind_some]
          rw [hLast, skipMark_digits hOthers rest (by decide)
            (by decide)]
          rfl

/- The digits of an hour have to be followed by a colon. -/
theorem skipTime_digits :
    skipTime (digits ++ '\n' :: rest) = none := by
  unfold skipTime
  cases hHour :
      readPair 0 23 (digits ++ '\n' :: rest) with
  | none => rfl
  | some hour =>
      have hAfter := eq_of_readPair hHour
      have hOthers :
          ∀ c ∈ digits.drop 2, c.isDigit = true := by
        intro c hMem
        exact hDigits c (List.mem_of_mem_drop hMem)
      simp only [Option.bind_eq_bind, Option.bind_some]
      rw [hAfter, skipMark_digits hOthers rest (by decide)
        (by decide)]
      rfl

theorem skipDateTime_digits :
    skipDateTime (digits ++ '\n' :: rest) = none := by
  rw [skipDateTime, skipDate_digits hDigits,
    skipTime_digits hDigits]

end Toml

end LineShell

------------------------------------------------------------
-- Counts as values
------------------------------------------------------------

namespace LineShell

namespace Toml

variable
    {count : Nat}
    {digits : List Char}
    (hDecimal : IsDecimal count digits)

include hDecimal

/- A zero in front is followed by the end of the line. -/
theorem IsDecimal.eq_newline_of_zero
    {c : Char}
    {rest more : List Char}
    (hChars : digits ++ '\n' :: rest = '0' :: c :: more) :
    c = '\n' := by
  rcases hDecimal.exists_cons with
    ⟨first, others, rfl, hDigit⟩
  rcases List.cons.inj hChars with ⟨rfl, hTail⟩
  have hAlone := hDecimal.zero_alone rfl
  rw [(List.cons.inj hAlone).2] at hTail
  exact (List.cons.inj hTail).1.symm

/- Digits are read as the integer that they stand for. -/
theorem readInteger_digits
    (hRange : isInRange count = true)
    (rest : List Char) :
    readInteger (digits ++ '\n' :: rest) =
      some ((count : Int), '\n' :: rest) := by
  have hSign := readSign_digits hDecimal rest
  rcases readDecimal_digits hDecimal rest with
    ⟨values, hRead, hValue⟩
  unfold readInteger
  split
  case h_1 hChars =>
    exact absurd (hDecimal.eq_newline_of_zero hChars)
      (by decide)
  case h_2 hChars =>
    exact absurd (hDecimal.eq_newline_of_zero hChars)
      (by decide)
  case h_3 hChars =>
    exact absurd (hDecimal.eq_newline_of_zero hChars)
      (by decide)
  case h_4 =>
    subst hValue
    rw [hSign]
    dsimp only
    rw [hRead, Option.bind_eq_bind, Option.bind_some]
    dsimp only
    rw [if_neg Bool.false_ne_true, if_pos hRange]

/- They are no text, no truth value and nothing but a count. -/
theorem readScalar_digits
    (hRange : isInRange count = true)
    (rest : List Char) :
    readScalar (digits ++ '\n' :: rest) =
      some (.integer count, '\n' :: rest) := by
  have hDate :=
    skipDateTime_digits hDecimal.isDigit rest
  have hFraction := skipFraction_digits hDecimal rest
  have hInteger :=
    readInteger_digits hDecimal hRange rest
  rcases hDecimal.exists_cons with
    ⟨first, others, rfl, hDigit⟩
  rw [List.cons_append] at *
  unfold readScalar
  split
  case h_1 hChars =>
    cases (List.cons.inj hChars).1
    cases hDigit
  case h_2 hChars =>
    cases (List.cons.inj hChars).1
    cases hDigit
  case h_3 hChars =>
    cases (List.cons.inj hChars).1
    cases hDigit
  case h_4 hChars =>
    cases (List.cons.inj hChars).1
    cases hDigit
  case h_5 =>
    rw [hDate, hFraction, hInteger]
    rfl

end Toml

end LineShell

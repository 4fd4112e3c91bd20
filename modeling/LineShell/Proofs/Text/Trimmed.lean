import LineShell.Text.Blank

/-
  What is left of a text without the blanks at its ends. It
  is the one part of the text around which there are blanks
  only and which has no blank at its own ends.

  Key definitions include:
    * `Text.IsBlankText`
    * `Text.IsTrimmedStart`
    * `Text.IsTrimmed`

  Correctness is proven by:
    * `Text.isTrimmedStart_iff`
    * `Text.isTrimmed_iff`
-/

------------------------------------------------------------
-- Texts without blanks at their ends
------------------------------------------------------------

namespace LineShell

namespace Text

/- There is nothing but blanks in a text. -/
def IsBlankText
    (text : String) : Prop :=
  ∀ c ∈ text.toList, isBlank c = true

/- A text is another one without the blanks at its start. -/
structure IsTrimmedStart
    (text kept : String) : Prop where
  no_blank_first :
    ∀ c, kept.toList.head? = some c → isBlank c = false
  text_eq :
    ∃ before, IsBlankText before ∧ text = before ++ kept

/- A text is another one without the blanks at its ends. -/
structure IsTrimmed
    (text kept : String) : Prop where
  no_blank_first :
    ∀ c, kept.toList.head? = some c → isBlank c = false
  no_blank_last :
    ∀ c, kept.toList.getLast? = some c → isBlank c = false
  text_eq :
    ∃ before after,
      IsBlankText before ∧ IsBlankText after ∧
        text = before ++ kept ++ after

theorem dropWhile_isBlank
    {chars : List Char}
    (hFirst :
      ∀ c, chars.head? = some c → isBlank c = false) :
    chars.dropWhile isBlank = chars := by
  cases chars with
  | nil => rfl
  | cons c chars =>
      have hHead : isBlank c = false := hFirst c rfl
      rw [List.dropWhile_cons_of_neg (by simp [hHead])]

theorem dropWhile_of_isBlank
    {chars : List Char}
    (hBlank : ∀ c ∈ chars, isBlank c = true) :
    chars.dropWhile isBlank = [] := by
  have hDrop :
      (chars ++ []).dropWhile isBlank =
        [].dropWhile isBlank :=
    List.dropWhile_append_of_pos hBlank
  rw [List.append_nil] at hDrop
  exact hDrop

/- A text is the blanks at its start and what is left. -/
theorem isTrimmedStart_trimStart
    (text : String) :
    IsTrimmedStart text (trimStart text) := by
  constructor
  · intro c hHead
    have hStop :=
      List.head?_dropWhile_not isBlank text.toList
    rw [trimStart, String.toList_ofList] at hHead
    rw [hHead] at hStop
    simpa using hStop
  · refine
      ⟨String.ofList (text.toList.takeWhile isBlank), ?_, ?_⟩
    · intro c hMem
      rw [String.toList_ofList] at hMem
      have hAll := List.all_takeWhile
        (p := isBlank) (l := text.toList)
      exact List.all_eq_true.1 hAll c hMem
    · apply String.toList_inj.1
      simp [trimStart, List.takeWhile_append_dropWhile]

/- Nothing else is left of a text. -/
theorem isTrimmedStart_iff
    {text kept : String} :
    IsTrimmedStart text kept ↔ kept = trimStart text := by
  constructor
  · rintro ⟨hFirst, before, hBlank, rfl⟩
    apply String.toList_inj.1
    rw [trimStart, String.toList_ofList,
      String.toList_append,
      List.dropWhile_append_of_pos hBlank,
      dropWhile_isBlank hFirst]
  · rintro rfl
    exact isTrimmedStart_trimStart text

/- Where no blank stands first, all is left of a text. -/
theorem trimStart_of_head
    {text : String}
    {c : Char}
    (hHead : text.toList.head? = some c)
    (hBlank : isBlank c = false) :
    trimStart text = text := by
  symm
  rw [← isTrimmedStart_iff]
  refine ⟨?_, "", ?_, String.empty_append.symm⟩
  · intro first hFirst
    rw [hHead, Option.some.injEq] at hFirst
    rw [← hFirst]
    exact hBlank
  · intro c hMem
    cases hMem

/- A space at the start is not left. -/
theorem trimStart_space_append
    (text : String) :
    trimStart (" " ++ text) = trimStart text := by
  have hSpace : isBlank ' ' = true := by decide
  have hText : (" " ++ text).toList = ' ' :: text.toList := by
    simp
  rw [trimStart, hText, List.dropWhile_cons_of_pos hSpace,
    trimStart]

/- A text is what is left of it and the blanks at its end. -/
theorem exists_trimEnd
    (text : String) :
    ∃ after,
      IsBlankText after ∧ text = trimEnd text ++ after ∧
        ∀ c,
          (trimEnd text).toList.getLast? = some c →
            isBlank c = false := by
  -- The end of a text is the start of its reverse.
  rcases isTrimmedStart_trimStart
      (String.ofList text.toList.reverse) with
    ⟨hFirst, before, hBlank, hText⟩
  have hEnd :
      (trimStart
          (String.ofList text.toList.reverse)).toList =
        (trimEnd text).toList.reverse := by
    simp [trimStart, trimEnd]
  have hReverse :
      text.toList.reverse =
        before.toList ++ (trimEnd text).toList.reverse := by
    rw [← hEnd, ← String.toList_append, ← hText,
      String.toList_ofList]
  refine ⟨String.ofList before.toList.reverse, ?_, ?_, ?_⟩
  · intro c hMem
    rw [String.toList_ofList, List.mem_reverse] at hMem
    exact hBlank c hMem
  · apply String.toList_inj.1
    rw [String.toList_append, String.toList_ofList,
      ← List.reverse_reverse text.toList, hReverse,
      List.reverse_append, List.reverse_reverse]
  · intro c hLast
    apply hFirst c
    rw [hEnd, List.head?_reverse]
    exact hLast

theorem isTrimmed_trim
    (text : String) :
    IsTrimmed text (trim text) := by
  rcases isTrimmedStart_trimStart text with
    ⟨hFirst, before, hBefore, hText⟩
  rcases exists_trimEnd (trimStart text) with
    ⟨after, hAfter, hStart, hLast⟩
  constructor
  · intro c hHead
    apply hFirst c
    rw [hStart, String.toList_append, List.head?_append]
    unfold trim at hHead
    rw [hHead]
    rfl
  · exact hLast
  · refine ⟨before, after, hBefore, hAfter, ?_⟩
    unfold trim
    rw [String.append_assoc, ← hStart]
    exact hText

/- Two texts that are left of one text are the same. -/
theorem IsTrimmed.eq_trim
    {text kept : String}
    (hTrimmed : IsTrimmed text kept) :
    kept = trim text := by
  rcases hTrimmed with
    ⟨hFirst, hLast, before, after, hBefore, hAfter, rfl⟩
  have hReverse :
      after.toList.reverse.dropWhile isBlank = [] := by
    apply dropWhile_of_isBlank
    intro c hMem
    exact hAfter c (List.mem_reverse.1 hMem)
  have hEnd :
      kept.toList.reverse.dropWhile isBlank =
        kept.toList.reverse := by
    apply dropWhile_isBlank
    intro c hHead
    apply hLast c
    rw [← List.head?_reverse]
    exact hHead
  have hStart :
      (before ++ kept ++ after).toList.dropWhile isBlank =
        (if kept.toList = [] then []
          else kept.toList ++ after.toList) := by
    rw [String.toList_append, String.toList_append,
      List.append_assoc,
      List.dropWhile_append_of_pos hBefore]
    split
    case isTrue hNone =>
      rw [hNone, List.nil_append]
      exact dropWhile_of_isBlank hAfter
    case isFalse hSome =>
      apply dropWhile_isBlank
      intro c hHead
      apply hFirst c
      rcases List.exists_cons_of_ne_nil hSome with
        ⟨first, rest, hKept⟩
      rw [hKept] at hHead ⊢
      exact hHead
  apply String.toList_inj.1
  unfold trim trimEnd trimStart
  rw [hStart]
  split
  case isTrue hNone => simp [hNone]
  case isFalse hSome =>
    rw [String.toList_ofList, String.toList_ofList,
      List.reverse_append, List.dropWhile_append, hReverse,
      hEnd]
    simp

theorem isTrimmed_iff
    {text kept : String} :
    IsTrimmed text kept ↔ kept = trim text := by
  constructor
  · exact IsTrimmed.eq_trim
  · rintro rfl
    exact isTrimmed_trim text

end Text

end LineShell

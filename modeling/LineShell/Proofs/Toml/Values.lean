import LineShell.Proofs.Toml.Numbers
import LineShell.Proofs.Toml.Strings

/-
  Values of documents. What is written for a string, for a
  list of strings and for a count is read back up to the end
  of its line.

  Key definitions include:
    * `Toml.IsQuote`
    * `Toml.itemLines`
    * `Toml.IsValueText`

  Correctness is proven by:
    * `Toml.isValueText_writeString`
    * `Toml.isValueText_toString`
    * `Toml.isValueText_writeStrings`
-/

------------------------------------------------------------
-- Strings as values
------------------------------------------------------------

namespace LineShell

namespace Toml

/- The characters with which a string may begin. -/
def IsQuote
    (c : Char) : Prop :=
  c = '\x22' ∨ c = '\x27'

/- What is written for a string begins with a quote. -/
theorem exists_writeString
    (text : String) :
    ∃ quote others,
      (writeString text).toList = quote :: others ∧
        IsQuote quote := by
  unfold writeString
  dsimp only
  rw [String.toList_ofList]
  cases Shape.ofText text.toList with
  | basic => exact ⟨_, _, rfl, Or.inl rfl⟩
  | literal => exact ⟨_, _, rfl, Or.inr rfl⟩
  | longBasic => exact ⟨_, _, rfl, Or.inl rfl⟩
  | longLiteral => exact ⟨_, _, rfl, Or.inr rfl⟩

/- What opens no list and no table is read on its own. -/
theorem readValueIn_scalar
    {c : Char}
    (hList : c ≠ '[')
    (hTable : c ≠ '\x7b')
    (steps depth : Nat)
    (others : List Char) :
    readValueIn (steps + 1) depth (c :: others) =
      readScalar (c :: others) := by
  rw [readValueIn.eq_def]
  dsimp only
  split
  case h_5 => rfl
  all_goals simp_all

/- A string is read back as a value of its own. -/
theorem readValueIn_writeString
    (steps depth : Nat)
    (text : String)
    {rest : List Char}
    (hRest : IsUnquoted rest) :
    readValueIn (steps + 1) depth
        ((writeString text).toList ++ rest) =
      some (.string text, rest) := by
  have hRead := readString_writeString text hRest
  have hText :
      readScalar.readText
          ((writeString text).toList ++ rest) =
        some (.string text, rest) := by
    rw [readScalar.readText, hRead, Option.map_some]
    dsimp only
    rw [String.ofList_toList]
  rcases exists_writeString text with
    ⟨quote, others, hChars, hQuote⟩
  rw [hChars, List.cons_append] at hText ⊢
  rw [← hText]
  rcases hQuote with rfl | rfl
  · exact readValueIn_scalar (by decide) (by decide) _ _ _
  · exact readValueIn_scalar (by decide) (by decide) _ _ _

end Toml

end LineShell

------------------------------------------------------------
-- Lists of strings as values
------------------------------------------------------------

namespace LineShell

namespace Toml

/- A quote is no filler between the items of a list. -/
theorem skipFiller_quote
    {quote : Char}
    (hQuote : IsQuote quote)
    (others : List Char) :
    skipFiller false (quote :: others) =
      some (quote :: others) := by
  rcases hQuote with rfl | rfl
  · rfl
  · rfl

/- What is filler before the items of a list does not count. -/
theorem readItems_of_skipFiller
    {first second : List Char}
    (hSame :
      skipFiller false first = skipFiller false second)
    (steps depth : Nat) :
    readItems steps depth first =
      readItems steps depth second := by
  cases steps with
  | zero => rw [readItems, readItems]
  | succ steps => rw [readItems, readItems, hSame]

/- The first string of a list is followed by the others. -/
theorem readItems_writeString
    (steps depth : Nat)
    (text : String)
    {rest : List Char}
    (hRest : IsUnquoted rest) :
    readItems (steps + 2) depth
        ((writeString text).toList ++ rest) =
      (do
        match ← skipFiller false rest with
        | ']' :: rest => some ([.string text], rest)
        | ',' :: rest =>
          let (items, rest) ←
            readItems (steps + 1) depth rest
          some (.string text :: items, rest)
        | _ => none) := by
  have hRead :=
    readValueIn_writeString steps depth text hRest
  rcases exists_writeString text with
    ⟨quote, others, hChars, hQuote⟩
  rw [hChars, List.cons_append] at hRead ⊢
  rw [readItems, skipFiller_quote hQuote]
  simp only [Option.bind_eq_bind, Option.bind_some]
  split
  case h_1 hList =>
    rcases List.cons.inj hList with ⟨rfl, hTail⟩
    rcases hQuote with hQuote | hQuote <;> cases hQuote
  case h_2 =>
    rw [hRead]
    rfl

/-
  The lines on which the strings of a list stand, up to its
  closing bracket.
-/
def itemLines
    (texts : List String) : List Char :=
  texts.flatMap fun text =>
    "    ".toList ++ (writeString text).toList ++ ",\n".toList

/- Lines of strings are read as the strings. -/
theorem readItems_itemLines
    (depth : Nat)
    (texts : List String)
    {steps : Nat}
    (hSteps : texts.length + 2 ≤ steps)
    (rest : List Char) :
    readItems steps depth
        ('\n' :: (itemLines texts ++ ']' :: rest)) =
      some (texts.map .string, rest) := by
  induction texts generalizing steps with
  | nil =>
      cases steps with
      | zero => simp at hSteps
      | succ steps =>
          rw [readItems]
          rfl
  | cons text others ih =>
      rw [List.length_cons] at hSteps
      obtain ⟨more, rfl⟩ : ∃ more, steps = more + 2 :=
        ⟨steps - 2, by omega⟩
      have hOthers :
          readItems (more + 1) depth
              ('\n' :: (itemLines others ++ ']' :: rest)) =
            some (others.map .string, rest) :=
        ih (by omega)
      -- The newline behind one string is filler before the
      -- next one.
      have hFiller :
          skipFiller false
              ('\n' ::
                (itemLines (text :: others) ++ ']' :: rest)) =
            skipFiller false
              ((writeString text).toList ++
                ',' :: '\n' ::
                  (itemLines others ++ ']' :: rest)) := by
        simp [itemLines, skipFiller, isBlank]
      have hComma :
          IsUnquoted
            (',' :: '\n' ::
              (itemLines others ++ ']' :: rest)) := by
        simp [IsUnquoted]
      rw [readItems_of_skipFiller hFiller,
        readItems_writeString more depth text hComma]
      simp [skipFiller, isBlank, hOthers]

end Toml

end LineShell

------------------------------------------------------------
-- Values at the end of a line
------------------------------------------------------------

namespace LineShell

namespace Toml

/-
  A text without a blank at its start that is read as a
  value up to the end of its line.
-/
structure IsValueText
    (chars : List Char)
    (value : Value) : Prop where
  starts :
    ∃ first others,
      chars = first :: others ∧ isBlank first = false
  reads :
    ∀ rest,
      readValue (chars ++ '\n' :: rest) =
        some (value, '\n' :: rest)

/- What is written for a string is a value. -/
theorem isValueText_writeString
    (text : String) :
    IsValueText (writeString text).toList
      (.string text) := by
  rcases exists_writeString text with
    ⟨quote, others, hChars, hQuote⟩
  constructor
  · refine ⟨quote, others, hChars, ?_⟩
    rcases hQuote with rfl | rfl <;> rfl
  · intro rest
    exact readValueIn_writeString _ depthLimit text
      (by simp [IsUnquoted])

/- What is written for a count is a value. -/
theorem isValueText_toString
    {count : Nat}
    (hRange : isInRange count = true) :
    IsValueText (toString count).toList (.integer count) := by
  have hDecimal := isDecimal_toString count
  rcases hDecimal.exists_cons with
    ⟨first, others, hDigits, hFirst⟩
  have hOther :
      ∀ c : Char, c.isDigit = false → first ≠ c := by
    rintro c hC rfl
    rw [hFirst] at hC
    cases hC
  constructor
  · refine ⟨first, others, hDigits, ?_⟩
    simp [isBlank, hOther ' ' (by decide),
      hOther '\t' (by decide)]
  · intro rest
    rw [← readScalar_digits hDecimal hRange rest, hDigits]
    exact readValueIn_scalar (hOther '[' (by decide))
      (hOther '\x7b' (by decide)) _ _ _

/- A list is read item by item. -/
theorem readValue_list
    (body : List Char) :
    readValue ('[' :: body) =
      (readItems (3 * body.length + 5) (depthLimit - 1)
          body).map
        fun (items, rest) => (.array items, rest) := by
  have hSteps :
      3 * ('[' :: body).length + 3 =
        3 * body.length + 5 + 1 := by
    rw [List.length_cons]
    omega
  have hDepth : depthLimit = depthLimit - 1 + 1 := rfl
  rw [readValue, hSteps, hDepth, readValueIn]
  rfl

theorem length_le_itemLines
    (texts : List String) :
    texts.length ≤ (itemLines texts).length := by
  induction texts with
  | nil => exact Nat.le_refl 0
  | cons text others ih =>
      unfold itemLines at ih ⊢
      rw [List.flatMap_cons, List.length_append,
        List.length_append, List.length_cons]
      have hComma : ",\n".toList.length = 2 := rfl
      omega

/-
  Between the brackets of a list stand its strings, and
  these are what is read there.
-/
theorem exists_writeStrings
    (texts : List String) :
    ∃ body,
      (writeStrings texts).toList = '[' :: (body ++ [']']) ∧
        texts.length ≤ body.length ∧
          ∀ steps depth rest,
            texts.length + 2 ≤ steps →
              readItems steps depth (body ++ ']' :: rest) =
                some (texts.map .string, rest) := by
  unfold writeStrings
  split
  case h_1 =>
    refine ⟨[], rfl, Nat.le_refl 0, ?_⟩
    intro steps depth rest hSteps
    obtain ⟨more, rfl⟩ : ∃ more, steps = more + 1 :=
      ⟨steps - 1, by rw [List.length_nil] at hSteps; omega⟩
    rw [readItems]
    rfl
  case h_2 text =>
    refine ⟨(writeString text).toList, ?_, ?_, ?_⟩
    · simp
    · rcases exists_writeString text with
        ⟨quote, others, hChars, hQuote⟩
      rw [hChars]
      simp
    · intro steps depth rest hSteps
      obtain ⟨more, rfl⟩ : ∃ more, steps = more + 2 :=
        ⟨steps - 2, by
          rw [List.length_singleton] at hSteps
          omega⟩
      rw [readItems_writeString more depth text
        (by simp [IsUnquoted])]
      simp [skipFiller, isBlank]
  case h_3 hNone hOne =>
    refine ⟨'\n' :: itemLines texts, ?_, ?_, ?_⟩
    · simp [itemLines, List.flatMap_map]
    · have hLength := length_le_itemLines texts
      rw [List.length_cons]
      omega
    · intro steps depth rest hSteps
      exact readItems_itemLines depth texts hSteps rest

/- What is written for a list of strings is a value. -/
theorem isValueText_writeStrings
    (texts : List String) :
    IsValueText (writeStrings texts).toList
      (.array (texts.map .string)) := by
  rcases exists_writeStrings texts with
    ⟨body, hBody, hLength, hRead⟩
  rw [hBody]
  constructor
  · exact ⟨'[', body ++ [']'], rfl, rfl⟩
  · intro rest
    have hChars :
        '[' :: (body ++ [']']) ++ '\n' :: rest =
          '[' :: (body ++ ']' :: '\n' :: rest) := by
      simp
    rw [hChars, readValue_list, hRead]
    · rfl
    · rw [List.length_append]
      omega

end Toml

end LineShell

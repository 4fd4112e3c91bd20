import LineShell.Proofs.Path.Normal

/-
  Normalizing as work on a stack. The pieces of a path
  between its slashes are pushed one by one: empty ones and
  single dots do nothing, two dots take the last name away.
  What the stack holds in the end is written behind the root
  of the path, and the root alone stands for an empty stack.

  Key definitions include:
    * `Path.pieces`
    * `Path.push`
    * `Path.stacked`
    * `Path.Respelled`
    * `Path.IsNormalized`

  Correctness is proven by:
    * `Path.normalize_eq_of_stacked`
    * `Path.normalize_normalize`
    * `Path.Respelled.components_eq`
    * `Path.normalize_writes_stack`
-/

------------------------------------------------------------
-- The stack
------------------------------------------------------------

namespace LineShell

namespace Path

/- The pieces of a path between its slashes. -/
def pieces
    (path : String) : List String :=
  (path.toList.splitOn '/').map String.ofList

/- The stack after one more piece. -/
def push
    (stack : List String)
    (piece : String) : List String :=
  if piece = "" ∨ piece = "." then
    stack
  else if piece = ".." then
    stack.dropLast
  else
    stack ++ [piece]

/- The names on the stack behind the last piece of a path. -/
def stacked
    (path : String) : List String :=
  (pieces path).foldl push []

theorem push_of_ignored
    {piece : String}
    (hPiece : ¬ (piece ≠ "" ∧ piece ≠ "."))
    (stack : List String) :
    push stack piece = stack := by
  unfold push
  rw [if_pos]
  rw [ne_eq, ne_eq, ← not_or] at hPiece
  exact Decidable.not_not.1 hPiece

theorem push_of_component
    {piece : String}
    (hPiece : piece ≠ "" ∧ piece ≠ ".")
    (stack : List String) :
    push stack piece = keep stack piece := by
  unfold push keep
  rw [if_neg (not_or.2 hPiece)]

/- Pieces that are no components leave the stack alone. -/
theorem foldl_push
    (all stack : List String) :
    all.foldl push stack =
      (all.filter fun piece =>
        piece ≠ "" ∧ piece ≠ ".").foldl keep stack := by
  induction all generalizing stack with
  | nil => rfl
  | cons piece rest ih =>
      rw [List.foldl_cons, ih]
      by_cases hPiece : piece ≠ "" ∧ piece ≠ "."
      · rw [push_of_component hPiece, List.filter_cons,
          if_pos (decide_eq_true hPiece), List.foldl_cons]
      · rw [push_of_ignored hPiece, List.filter_cons,
          if_neg (by simpa using hPiece)]

/- The names that are kept of a path are those stacked. -/
theorem stacked_eq_kept
    (path : String) :
    stacked path = kept path :=
  foldl_push (pieces path) []

end Path

end LineShell

------------------------------------------------------------
-- Written stacks
------------------------------------------------------------

namespace LineShell

namespace Path

/- The name of an entry is a relative path. -/
theorem IsEntry.isAbsolute_eq_false
    {name : String}
    (hName : IsEntry name) :
    isAbsolute name = false := by
  unfold isAbsolute
  rw [decide_eq_false_iff_not]
  intro hHead
  exact hName.no_slash (List.mem_of_head? hHead)

variable
    {root : String}
    {names : List String}

/- What names are written behind is the root of the path. -/
theorem rootOf_written
    (hRoot : IsRoot root)
    (hSome : names ≠ [])
    (hNames : ∀ name ∈ names, IsEntry name) :
    rootOf (written root names) = root := by
  rcases hRoot with rfl | rfl
  · have hAbsolute :
        isAbsolute (written "/" names) = true := by
      rw [written, isAbsolute_append (by decide)]
      decide
    exact rootOf_of_isAbsolute hAbsolute
  · have hRelative :
        isAbsolute (written "" names) = false := by
      rw [written, String.empty_append]
      cases names with
      | nil => exact absurd rfl hSome
      | cons name rest =>
          have hName := hNames name List.mem_cons_self
          by_cases hRest : rest = []
          · rw [hRest, String.intercalate_singleton]
            exact hName.isAbsolute_eq_false
          · rw [String.intercalate_cons_of_ne_nil hRest,
              String.append_assoc,
              isAbsolute_append hName.ne_empty]
            exact hName.isAbsolute_eq_false
    rw [rootOf, hRelative]
    rfl

theorem components_written_of_isRoot
    (hRoot : IsRoot root)
    (hNames : ∀ name ∈ names, IsEntry name) :
    components (written root names) = names := by
  rcases hRoot with rfl | rfl
  · exact components_written hNames
  · rw [written, String.empty_append,
      components_intercalate hNames]

/- Behind written names there is no slash. -/
theorem getLast?_written
    (root : String)
    (hSome : names ≠ [])
    (hNames : ∀ name ∈ names, IsEntry name) :
    (written root names).toList.getLast? ≠ some '/' := by
  rcases List.eq_nil_or_concat names with
    rfl | ⟨front, last, hEq⟩
  · exact absurd rfl hSome
  · rw [List.concat_eq_append] at hEq
    subst hEq
    have hLast := hNames last (by simp)
    rcases exists_written_append root front last with
      ⟨before, hBefore⟩
    rw [hBefore, String.toList_append, List.getLast?_append]
    cases hText : last.toList.getLast? with
    | none =>
        exact absurd
          (String.toList_eq_nil_iff.1
            (List.getLast?_eq_none_iff.1 hText))
          hLast.ne_empty
    | some c =>
        rintro ⟨⟩
        exact hLast.no_slash (List.mem_of_getLast? hText)

theorem written_ne_empty_of_ne_nil
    (root : String)
    (hSome : names ≠ [])
    (hNames : ∀ name ∈ names, IsEntry name) :
    written root names ≠ "" := by
  rcases List.eq_nil_or_concat names with
    rfl | ⟨front, last, hEq⟩
  · exact absurd rfl hSome
  · rw [List.concat_eq_append] at hEq
    subst hEq
    exact written_append_ne_empty root front
      (hNames last (by simp)).ne_empty

/- To normalize a path is to write its stack. -/
theorem normalize_eq_of_stacked
    (path : String) :
    normalize path =
      if stacked path = [] then
        "/"
      else
        written (rootOf path) (stacked path) := by
  rw [normalize_eq, stacked_eq_kept]
  by_cases hNone : kept path = []
  · rw [if_pos hNone, hNone]
    rcases isRoot_rootOf path with hRoot | hRoot <;>
      simp [hRoot, written]
  · have hSome :=
      written_ne_empty_of_ne_nil (rootOf path) hNone
        fun _ hMem => isEntry_of_mem_kept hMem
    rw [if_neg hNone, if_neg hSome]

end Path

end LineShell

------------------------------------------------------------
-- Normalizing again
------------------------------------------------------------

namespace LineShell

namespace Path

variable
    {root : String}
    {names : List String}

/- The stack of what was written from a stack is that one. -/
theorem stacked_written
    (hRoot : IsRoot root)
    (hNames : ∀ name ∈ names, IsEntry name) :
    stacked (written root names) = names := by
  rw [stacked_eq_kept, kept,
    components_written_of_isRoot hRoot hNames,
    foldl_keep hNames, List.nil_append]

/- What has been normalized is left as it is. -/
theorem normalize_normalize
    (path : String) :
    normalize (normalize path) = normalize path := by
  have hNames :
      ∀ name ∈ stacked path, IsEntry name := by
    rw [stacked_eq_kept]
    exact fun _ hMem => isEntry_of_mem_kept hMem
  have hRoot := isRoot_rootOf path
  rw [normalize_eq_of_stacked path]
  by_cases hNone : stacked path = []
  · rw [if_pos hNone]
    decide
  · rw [if_neg hNone, normalize_eq_of_stacked,
      stacked_written hRoot hNames, if_neg hNone,
      rootOf_written hRoot hNone hNames]

end Path

end LineShell

------------------------------------------------------------
-- Spellings of a path
------------------------------------------------------------

namespace LineShell

namespace Path

/- A text behind which a component can begin. -/
def EndsComponent
    (front : String) : Prop :=
  front = "" ∨ ∃ before, front = before ++ "/"

/-
  Two texts that differ only by repeated slashes, by single
  dots as components, or by slashes at the end.
-/
inductive Respelled :
    String → String → Prop where
  | same
      (path : String) :
      Respelled path path
  | back
      {first second : String}
      (hFirst : Respelled first second) :
      Respelled second first
  | onward
      {first second third : String}
      (hFirst : Respelled first second)
      (hSecond : Respelled second third) :
      Respelled first third
  | slash
      (front rest : String) :
      Respelled (front ++ "//" ++ rest)
        (front ++ "/" ++ rest)
  | dot
      {front : String}
      (hFront : EndsComponent front)
      (rest : String) :
      Respelled (front ++ "./" ++ rest) (front ++ rest)
  | lastDot
      {front : String}
      (hFront : EndsComponent front) :
      Respelled (front ++ ".") front
  | lastSlash
      (front : String) :
      Respelled (front ++ "/") front

/- A component stands apart from what ends before it. -/
theorem components_append_of_endsComponent
    {front : String}
    (hFront : EndsComponent front)
    (rest : String) :
    components (front ++ rest) =
      components front ++ components rest := by
  rcases hFront with rfl | ⟨before, rfl⟩
  · rw [String.empty_append]
    rfl
  · rw [components_append, components_append_slash]

/- Spellings of a path have the same components. -/
theorem Respelled.components_eq
    {first second : String}
    (hSpelled : Respelled first second) :
    components first = components second := by
  have hSlash :
      ∀ rest, components ("/" ++ rest) = components rest := by
    intro rest
    exact components_append "" rest
  induction hSpelled with
  | same path => rfl
  | back hFirst ih => exact ih.symm
  | onward hFirst hSecond ihFirst ihSecond =>
      exact ihFirst.trans ihSecond
  | slash front rest =>
      have hText :
          front ++ "//" ++ rest =
            front ++ "/" ++ ("/" ++ rest) := by
        simp only [String.append_assoc]
        rfl
      rw [hText, components_append, components_append, hSlash]
  | dot hFront rest =>
      have hDot : components ("./" ++ rest) = components rest :=
        components_append "." rest
      rw [String.append_assoc,
        components_append_of_endsComponent hFront, hDot,
        components_append_of_endsComponent hFront]
  | lastDot hFront =>
      rw [components_append_of_endsComponent hFront]
      exact List.append_nil _
  | lastSlash front => exact components_append_slash front

/- Spellings with the same root are normalized alike. -/
theorem Respelled.normalize_eq
    {first second : String}
    (hSpelled : Respelled first second)
    (hRoot : isAbsolute first = isAbsolute second) :
    normalize first = normalize second := by
  unfold normalize rootOf
  rw [hSpelled.components_eq, hRoot]

end Path

end LineShell

------------------------------------------------------------
-- What normalizing gives
------------------------------------------------------------

namespace LineShell

namespace Path

/-
  What a path becomes when it is normalized: what its stack
  holds, in one spelling for all spellings of the path. A
  name in it is not empty, not `.` or `..`, and has no slash.
-/
structure IsNormalized
    (path result : String) : Prop where
  from_stack :
    result =
      if stacked path = [] then
        "/"
      else
        rootOf path ++ "/".intercalate (stacked path)
  again : normalize result = result
  named :
    result = "/" ∨
      ∃ names,
        names ≠ [] ∧
          (∀ name ∈ names, IsEntry name) ∧
            result = rootOf path ++ "/".intercalate names
  no_last_slash :
    result.toList.getLast? = some '/' → result = "/"
  absolute :
    isAbsolute path = true → isAbsolute result = true
  same_spelling :
    ∀ other,
      Respelled path other →
        isAbsolute path = isAbsolute other →
          normalize other = result

/- A path is normalized to what is written of its stack. -/
theorem normalize_writes_stack
    (path : String) :
    IsNormalized path (normalize path) := by
  have hNames :
      ∀ name ∈ stacked path, IsEntry name := by
    rw [stacked_eq_kept]
    exact fun _ hMem => isEntry_of_mem_kept hMem
  have hStack := normalize_eq_of_stacked path
  refine
    { from_stack := hStack
      again := normalize_normalize path
      named := ?named
      no_last_slash := ?no_last_slash
      absolute := ?absolute
      same_spelling := ?same_spelling }
  case named =>
    by_cases hNone : stacked path = []
    · rw [if_pos hNone] at hStack
      exact Or.inl hStack
    · rw [if_neg hNone] at hStack
      exact Or.inr ⟨stacked path, hNone, hNames, hStack⟩
  case no_last_slash =>
    intro hSlash
    by_cases hNone : stacked path = []
    · rw [hStack, if_pos hNone]
    · rw [hStack, if_neg hNone] at hSlash
      exact absurd hSlash
        (getLast?_written (rootOf path) hNone hNames)
  case absolute =>
    intro hAbsolute
    exact (isNormal_normalize hAbsolute).isAbsolute
  case same_spelling =>
    intro other hSpelled hRoot
    exact (hSpelled.normalize_eq hRoot).symm

example : normalize "a/./b//../../../c/" = "c" := by
  decide

end Path

end LineShell

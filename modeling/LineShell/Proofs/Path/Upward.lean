import LineShell.Proofs.FileSystem.Lookup
import LineShell.Proofs.FileSystem.Names
import LineShell.Proofs.Path.Stack

/-
  Resolved paths and the paths above them. A resolved path
  is the root or names behind a root; its steps are these
  names, and the paths above it are those with fewer names.

  Key definitions include:
    * `Path.IsPlain`

  Correctness is proven by:
    * `Path.isPlain_normalize`
    * `Path.upward_written`
    * `Step.ofPath_written`
-/

------------------------------------------------------------
-- Resolved paths
------------------------------------------------------------

namespace LineShell

namespace Path

/- The root, or a path that is written with names alone. -/
inductive IsPlain :
    String → Prop where
  | root :
      IsPlain "/"
  | named
      {root : String}
      {names : List String}
      (hRoot : IsRoot root)
      (hSome : names ≠ [])
      (hNames : ∀ name ∈ names, IsEntry name) :
      IsPlain (written root names)

/- What is normalized is plain. -/
theorem isPlain_normalize
    (path : String) :
    IsPlain (normalize path) := by
  rcases (normalize_writes_stack path).named with
    hRoot | ⟨names, hSome, hNames, hWritten⟩
  · rw [hRoot]
    exact .root
  · rw [hWritten]
    exact .named (isRoot_rootOf path) hSome hNames

variable
    {root : String}
    {names : List String}
    {name : String}

/- Nothing is above a path without names. -/
theorem upward_root
    (hRoot : IsRoot root) :
    upward (written root []) = [] := by
  rcases hRoot with rfl | rfl <;> decide

/- Above a path is the one that lacks the last name. -/
theorem upward_written
    (hRoot : IsRoot root)
    (hNames : ∀ other ∈ names ++ [name], IsEntry other) :
    upward (written root (names ++ [name])) =
      written root (names ++ [name]) ::
        upward (written root names) := by
  have hFront := (List.forall_mem_append.1 hNames).1
  have hWhole :
      (names ++ [name]).take (names.length + 1) =
        names ++ [name] := by
    apply List.take_of_length_le
    simp
  unfold upward
  dsimp only
  rw [components_written_of_isRoot hRoot hNames,
    components_written_of_isRoot hRoot hFront,
    rootOf_written hRoot (by simp) hNames,
    List.length_append, List.length_singleton,
    List.range_succ, List.reverse_append,
    List.reverse_singleton, List.singleton_append,
    List.map_cons, hWhole]
  refine congrArg (_ :: ·) (List.map_congr_left ?_)
  intro index hIndex
  rw [List.mem_reverse, List.mem_range] at hIndex
  have hSome : names ≠ [] := by
    rintro rfl
    simp at hIndex
  rw [rootOf_written hRoot hSome hFront,
    List.take_append_of_le_length hIndex]

/- A path begins with the path above it. -/
theorem exists_written_concat
    (root : String)
    (names : List String)
    (name : String) :
    ∃ rest,
      written root (names ++ [name]) =
        written root names ++ rest := by
  by_cases hSome : names = []
  · subst hSome
    refine ⟨name, ?_⟩
    simp [written]
  · rw [written_append hSome]
    exact ⟨"/" ++ name, String.append_assoc⟩

/- A path has the characters of its names. -/
theorem mem_toList_written
    {char : Char}
    (hMem : name ∈ names)
    (hChar : char ∈ name.toList) :
    char ∈ (written root names).toList := by
  rw [written, String.toList_append]
  apply List.mem_append_right
  induction names with
  | nil => cases hMem
  | cons first rest ih =>
      by_cases hRest : rest = []
      · subst hRest
        rw [List.mem_singleton.1 hMem] at hChar
        rw [String.intercalate_singleton]
        exact hChar
      · rw [String.intercalate_cons_of_ne_nil hRest,
          String.toList_append, String.toList_append,
          List.append_assoc, List.mem_append]
        rcases List.mem_cons.1 hMem with rfl | hOther
        · exact Or.inl hChar
        · exact Or.inr
            (List.mem_append_right _ (ih hOther))

/- Above a path that can be looked up there are only such. -/
theorem isSearchable_front
    (hSome : names ≠ [])
    (hNames : ∀ other ∈ names, IsEntry other)
    (hSearchable :
      IsSearchable (written root (names ++ [name]))) :
    IsSearchable (written root names) := by
  rcases exists_written_concat root names name with
    ⟨rest, hRest⟩
  rcases hSearchable with ⟨hNul, hText, hShort⟩
  rw [hRest] at hNul hShort
  rw [String.toList_append, List.mem_append, not_or] at hNul
  rw [String.utf8ByteSize_append] at hShort
  exact ⟨hNul.1,
    written_ne_empty_of_ne_nil root hSome hNames,
    Nat.lt_of_le_of_lt (Nat.le_add_right _ _) hShort⟩

end Path

end LineShell

------------------------------------------------------------
-- Steps of names
------------------------------------------------------------

namespace LineShell

namespace Step

open LineShell.Path (IsEntry IsRoot written)

variable
    {root name : String}
    {names : List String}

/- A name that may name an entry is a step downward. -/
theorem ofText_of_isName
    (hName : IsEntry name)
    (hIs : IsName name) :
    ofText name = .down ⟨name, hIs⟩ := by
  rw [ofText_eq, if_neg hName.ne_dot, if_neg hName.ne_up,
    dif_pos hIs]

theorem ofText_of_not_isName
    (hName : IsEntry name)
    (hNot : ¬ IsName name) :
    ofText name = .unusable := by
  rw [ofText_eq, if_neg hName.ne_dot, if_neg hName.ne_up,
    dif_neg hNot]

/- The pieces of names with slashes between them. -/
theorem splitOn_intercalate
    (hSome : names ≠ [])
    (hNames : ∀ other ∈ names, IsEntry other) :
    ("/".intercalate names).toList.splitOn '/' =
      names.map (·.toList) := by
  induction names with
  | nil => exact absurd rfl hSome
  | cons name rest ih =>
      rcases List.forall_mem_cons.1 hNames with
        ⟨hName, hOthers⟩
      have hPiece :
          name.toList.splitOn '/' = [name.toList] :=
        List.splitOn_eq_singleton hName.no_slash
      by_cases hRest : rest = []
      · subst hRest
        rw [String.intercalate_singleton, hPiece]
        rfl
      · have hText :
            ("/".intercalate (name :: rest)).toList =
              name.toList ++
                '/' :: ("/".intercalate rest).toList := by
          rw [String.intercalate_cons_of_ne_nil hRest]
          simp
        rw [hText, List.splitOn_append_cons_self, hPiece,
          ih hRest hOthers]
        rfl

/- The steps of a path are its names one by one. -/
theorem ofPath_written
    (hRoot : IsRoot root)
    (hSome : names ≠ [])
    (hNames : ∀ other ∈ names, IsEntry other) :
    ofPath (written root names) = names.map ofText := by
  have hIntercalate := splitOn_intercalate hSome hNames
  have hPieces :
      ∃ front,
        (front = [] ∨ front = [[]]) ∧
          (written root names).toList.splitOn '/' =
            front ++ names.map (·.toList) := by
    rcases hRoot with rfl | rfl
    · refine ⟨[[]], Or.inr rfl, ?_⟩
      have hText :
          (written "/" names).toList =
            [] ++ '/' :: ("/".intercalate names).toList := by
        rw [written, String.toList_append]
        rfl
      rw [hText, List.splitOn_append_cons_self,
        hIntercalate]
      rfl
    · refine ⟨[], Or.inl rfl, ?_⟩
      rw [written, String.empty_append, hIntercalate]
      rfl
  rcases hPieces with ⟨front, hFront, hPieces⟩
  have hEmpty : ∀ other ∈ names, other.toList ≠ [] := by
    intro other hMem
    exact mt String.toList_eq_nil_iff.1
      (hNames other hMem).ne_empty
  have hFilter :
      (front ++ names.map (·.toList)).filter (· ≠ []) =
        names.map (·.toList) := by
    rw [List.filter_append]
    have hNone : front.filter (· ≠ []) = [] := by
      rcases hFront with rfl | rfl <;> rfl
    rw [hNone, List.nil_append, List.filter_eq_self]
    intro piece hPiece
    rcases List.mem_map.1 hPiece with ⟨other, hMem, rfl⟩
    exact decide_eq_true (hEmpty other hMem)
  have hLast :
      (front ++ names.map (·.toList)).getLast? ≠
        some [] := by
    rw [List.getLast?_append, List.getLast?_map]
    cases hName : names.getLast? with
    | none =>
        exact absurd (List.getLast?_eq_none_iff.1 hName)
          hSome
    | some last =>
        have hOther :=
          hEmpty last (List.mem_of_getLast? hName)
        simpa using hOther
  rw [ofPath_ofText]
  dsimp only
  rw [hPieces, if_neg hLast, hFilter, List.map_map]
  apply List.map_congr_left
  intro other hMem
  exact congrArg ofText String.ofList_toList

end Step

end LineShell

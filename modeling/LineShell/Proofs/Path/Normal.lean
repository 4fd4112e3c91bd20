import LineShell.Path

/-
  Normal paths. Normalizing a path keeps the names on a
  stack, from which each `..` takes the last one, and writes
  what is left with one slash between any two names. What is
  written so is left as it is when it is normalized again.

  Key definitions include:
    * `Path.IsEntry`
    * `Path.kept`
    * `Path.written`
    * `Path.IsNormal`

  Correctness is proven by:
    * `Path.normalize_eq`
    * `Path.isNormal_normalize`
    * `Path.normalize_of_isNormal`
-/

------------------------------------------------------------
-- Names of entries
------------------------------------------------------------

namespace LineShell

namespace Path

/-
  A component that stands for an entry: it is not empty, it
  is not one of the dots, and it has no slash.
-/
structure IsEntry
    (name : String) : Prop where
  ne_empty : name ≠ ""
  ne_dot : name ≠ "."
  ne_up : name ≠ ".."
  no_slash : '/' ∉ name.toList

/- The names after one more component of a path. -/
def keep
    (names : List String)
    (component : String) : List String :=
  if component = ".." then
    names.dropLast
  else
    names ++ [component]

/- The names that are left of a path. -/
def kept
    (path : String) : List String :=
  (components path).foldl keep []

/- Names behind a root, with one slash between any two. -/
def written
    (root : String)
    (names : List String) : String :=
  root ++ "/".intercalate names

/-
  The absolute paths that are written with names alone. The
  root is one of them.
-/
def IsNormal
    (path : String) : Prop :=
  ∃ names,
    (∀ name ∈ names, IsEntry name) ∧
      path = written "/" names

end Path

end LineShell

------------------------------------------------------------
-- Components
------------------------------------------------------------

namespace LineShell

namespace Path

/- No piece between slashes has a slash. -/
theorem slash_not_mem_piece
    {chars piece : List Char}
    (hMem : piece ∈ chars.splitOn '/') :
    '/' ∉ piece := by
  induction hLength : chars.length
    using Nat.strongRecOn generalizing chars with
  | ind length ih =>
      by_cases hSlash : '/' ∈ chars
      · rcases List.eq_append_cons_of_mem hSlash with
          ⟨front, back, rfl, hFront⟩
        rw [List.splitOn_append_cons_self_of_not_mem hFront]
          at hMem
        rcases List.mem_cons.1 hMem with rfl | hBack
        · exact hFront
        · refine ih back.length ?_ hBack rfl
          rw [← hLength, List.length_append,
            List.length_cons]
          omega
      · rw [List.splitOn_eq_singleton hSlash] at hMem
        rw [List.mem_singleton.1 hMem]
        exact hSlash

/- A component is the name of an entry, or it leads upward. -/
theorem isEntry_of_mem_components
    {path component : String}
    (hMem : component ∈ components path)
    (hUp : component ≠ "..") :
    IsEntry component := by
  rcases List.mem_filter.1 hMem with ⟨hPiece, hKept⟩
  rcases List.mem_map.1 hPiece with ⟨piece, hIn, rfl⟩
  have hKept :
      String.ofList piece ≠ "" ∧
        String.ofList piece ≠ "." :=
    of_decide_eq_true hKept
  refine ⟨hKept.1, hKept.2, hUp, ?_⟩
  rw [String.toList_ofList]
  exact slash_not_mem_piece hIn

/- The components on both sides of a slash. -/
theorem components_append
    (front back : String) :
    components (front ++ "/" ++ back) =
      components front ++ components back := by
  have hPieces :
      (front ++ "/" ++ back).toList.splitOn '/' =
        front.toList.splitOn '/' ++
          back.toList.splitOn '/' := by
    rw [String.toList_append, String.toList_append,
      List.append_assoc]
    exact List.splitOn_append_cons_self _ _
  unfold components
  rw [hPieces, List.map_append, List.filter_append]

/- A slash at the end of a path adds no component. -/
theorem components_append_slash
    (path : String) :
    components (path ++ "/") = components path := by
  have hPieces := components_append path ""
  rw [String.append_empty] at hPieces
  rw [hPieces]
  exact List.append_nil _

/- The name of an entry is its own only component. -/
theorem components_of_isEntry
    {name : String}
    (hName : IsEntry name) :
    components name = [name] := by
  unfold components
  rw [List.splitOn_eq_singleton hName.no_slash]
  simp [hName.ne_empty, hName.ne_dot]

/- The components of names with a slash between any two. -/
theorem components_intercalate
    {names : List String}
    (hNames : ∀ name ∈ names, IsEntry name) :
    components ("/".intercalate names) = names := by
  induction names with
  | nil => rfl
  | cons name rest ih =>
      rcases List.forall_mem_cons.1 hNames with
        ⟨hEntry, hOthers⟩
      have hName := components_of_isEntry hEntry
      by_cases hSome : rest = []
      · subst hSome
        rw [String.intercalate_singleton]
        exact hName
      · rw [String.intercalate_cons_of_ne_nil hSome,
          components_append, hName, ih hOthers]
        rfl

/- The components of a path that is written with names. -/
theorem components_written
    {names : List String}
    (hNames : ∀ name ∈ names, IsEntry name) :
    components (written "/" names) = names := by
  have hRoot :
      written "/" names =
        "" ++ "/" ++ "/".intercalate names := by
    rw [written, String.empty_append]
  rw [hRoot, components_append,
    components_intercalate hNames]
  rfl

end Path

end LineShell

------------------------------------------------------------
-- One step
------------------------------------------------------------

namespace LineShell

namespace Path

/- A name without a slash is the last piece of a path. -/
theorem dropWhile_name
    {name : String}
    (hName : '/' ∉ name.toList)
    (chars : List Char) :
    (name.toList.reverse ++ chars).dropWhile (· ≠ '/') =
      chars.dropWhile (· ≠ '/') := by
  apply List.dropWhile_append_of_pos
  intro c hMem
  simp only [decide_eq_true_eq]
  rintro rfl
  exact hName (List.mem_reverse.1 hMem)

/- From a name alone the way up leads to nothing. -/
theorem climb_name
    {name : String}
    (hName : '/' ∉ name.toList) :
    climb name = "" := by
  have hDrop := dropWhile_name hName []
  rw [List.append_nil] at hDrop
  unfold climb
  rw [hDrop]
  rfl

/- The way up takes the last name and its slash away. -/
theorem climb_append
    {name : String}
    (hName : '/' ∉ name.toList)
    (base : String) :
    climb (base ++ "/" ++ name) =
      if base = "" then "/" else base := by
  have hReverse :
      (base ++ "/" ++ name).toList.reverse =
        name.toList.reverse ++
          '/' :: base.toList.reverse := by
    simp
  unfold climb
  rw [hReverse, dropWhile_name hName,
    List.dropWhile_cons_of_neg (by simp)]
  by_cases hBase : base = ""
  · subst hBase
    rfl
  · rw [if_neg hBase]
    cases hChars : base.toList.reverse with
    | nil =>
        exact absurd
          (String.toList_eq_nil_iff.1
            (List.reverse_eq_nil_iff.1 hChars)) hBase
    | cons c rest =>
        have hText : (c :: rest).reverse = base.toList := by
          rw [← hChars, List.reverse_reverse]
        simp only [hText, String.ofList_toList]

/- The roots of absolute and of relative paths. -/
def IsRoot
    (root : String) : Prop :=
  root = "/" ∨ root = ""

theorem isRoot_rootOf
    (path : String) :
    IsRoot (rootOf path) := by
  unfold rootOf IsRoot
  split <;> simp

/- One more name is written behind the others. -/
theorem written_append
    {root : String}
    {names : List String}
    (hSome : names ≠ [])
    (name : String) :
    written root (names ++ [name]) =
      written root names ++ "/" ++ name := by
  unfold written
  rw [String.intercalate_append_of_ne_nil hSome (by simp),
    String.intercalate_singleton]
  simp only [String.append_assoc]

/- What is written with a name last ends as that name does. -/
theorem exists_written_append
    (root : String)
    (names : List String)
    (name : String) :
    ∃ front, written root (names ++ [name]) = front ++ name := by
  by_cases hSome : names = []
  · subst hSome
    exact ⟨root, by simp [written]⟩
  · exact ⟨_, written_append hSome name⟩

theorem written_append_ne_empty
    (root : String)
    (names : List String)
    {name : String}
    (hName : name ≠ "") :
    written root (names ++ [name]) ≠ "" := by
  rcases exists_written_append root names name with
    ⟨front, hFront⟩
  rw [hFront]
  intro hEmpty
  exact hName (String.append_eq_empty_iff.1 hEmpty).2

/- The way up takes the last of the names away. -/
theorem climb_written
    {root : String}
    (hRoot : IsRoot root)
    {names : List String}
    (hNames : ∀ name ∈ names, IsEntry name) :
    climb (written root names) =
      written root names.dropLast := by
  rcases List.eq_nil_or_concat names with
    rfl | ⟨front, name, hEq⟩
  · rcases hRoot with rfl | rfl <;> decide
  · rw [List.concat_eq_append] at hEq
    subst hEq
    have hName : '/' ∉ name.toList :=
      (hNames name (by simp)).no_slash
    rw [List.dropLast_concat]
    by_cases hSome : front = []
    · subst hSome
      rcases hRoot with rfl | rfl
      · have hText :
            written "/" ([] ++ [name]) = "" ++ "/" ++ name := by
          simp [written]
        rw [hText, climb_append hName]
        rfl
      · have hText : written "" ([] ++ [name]) = name := by
          simp [written]
        rw [hText, climb_name hName]
        rfl
    · have hBase : written root front ≠ "" := by
        rcases List.eq_nil_or_concat front with
          rfl | ⟨others, last, hFront⟩
        · exact absurd rfl hSome
        · rw [List.concat_eq_append] at hFront
          subst hFront
          exact written_append_ne_empty root others
            (hNames last (by simp)).ne_empty
      rw [written_append hSome, climb_append hName,
        if_neg hBase]

/- A name is joined to the names before it. -/
theorem join_written
    {root : String}
    (hRoot : IsRoot root)
    {names : List String}
    (hNames : ∀ name ∈ names, IsEntry name)
    {name : String}
    (hName : IsEntry name) :
    join (written root names) name =
      written root (names ++ [name]) := by
  have hRelative : isAbsolute name = false := by
    unfold isAbsolute
    rw [decide_eq_false_iff_not]
    intro hHead
    exact hName.no_slash (List.mem_of_head? hHead)
  unfold join
  rw [hRelative]
  rcases List.eq_nil_or_concat names with
    rfl | ⟨front, last, hEq⟩
  · rcases hRoot with rfl | rfl <;> simp [written]
  · rw [List.concat_eq_append] at hEq
    subst hEq
    have hLast := hNames last (by simp)
    have hSome :=
      written_append_ne_empty root front hLast.ne_empty
    rcases exists_written_append root front last with
      ⟨before, hBefore⟩
    have hEnd :
        (written root (front ++ [last])).toList.getLast? ≠
          some '/' := by
      rw [hBefore, String.toList_append,
        List.getLast?_append]
      cases hText : last.toList.getLast? with
      | none =>
          exact absurd
            (String.toList_eq_nil_iff.1
              (List.getLast?_eq_none_iff.1 hText))
            hLast.ne_empty
      | some c =>
          rintro ⟨⟩
          exact hLast.no_slash (List.mem_of_getLast? hText)
    have hText :
        written root (front ++ [last] ++ [name]) =
          written root (front ++ [last]) ++ "/" ++ name :=
      written_append (by simp) name
    rw [if_neg (by simp [hSome]), if_neg hEnd, hText]

/- One more component changes the names as on a stack. -/
theorem step_written
    {root : String}
    (hRoot : IsRoot root)
    {names : List String}
    (hNames : ∀ name ∈ names, IsEntry name)
    {component : String}
    (hComponent : component ≠ ".." → IsEntry component) :
    step (written root names) component =
        written root (keep names component) ∧
      ∀ name ∈ keep names component, IsEntry name := by
  unfold step keep
  by_cases hUp : component = ".."
  · rw [if_pos hUp, if_pos hUp]
    refine ⟨climb_written hRoot hNames, ?_⟩
    intro name hMem
    exact hNames name (List.dropLast_subset names hMem)
  · rw [if_neg hUp, if_neg hUp]
    refine
      ⟨join_written hRoot hNames (hComponent hUp), ?_⟩
    intro name hMem
    rcases List.mem_append.1 hMem with hIn | hLast
    · exact hNames name hIn
    · rw [List.mem_singleton.1 hLast]
      exact hComponent hUp

end Path

end LineShell

------------------------------------------------------------
-- Normal paths
------------------------------------------------------------

namespace LineShell

namespace Path

/- Components change the names of a path one by one. -/
theorem foldl_step_written
    {root : String}
    (hRoot : IsRoot root)
    {all : List String}
    (hAll :
      ∀ component ∈ all,
        component ≠ ".." → IsEntry component)
    {names : List String}
    (hNames : ∀ name ∈ names, IsEntry name) :
    all.foldl step (written root names) =
        written root (all.foldl keep names) ∧
      ∀ name ∈ all.foldl keep names, IsEntry name := by
  induction all generalizing names with
  | nil => exact ⟨rfl, hNames⟩
  | cons component rest ih =>
      rcases List.forall_mem_cons.1 hAll with
        ⟨hComponent, hRest⟩
      have hStep := step_written hRoot hNames hComponent
      rw [List.foldl_cons, List.foldl_cons, hStep.1]
      exact ih hRest hStep.2

/- The components of a path leave the names that are kept. -/
theorem foldl_components
    (path : String) :
    (components path).foldl step (rootOf path) =
        written (rootOf path) (kept path) ∧
      ∀ name ∈ kept path, IsEntry name := by
  have hStart : written (rootOf path) [] = rootOf path := by
    simp [written]
  have hNone : ∀ name ∈ ([] : List String), IsEntry name := by
    simp
  have hAll :
      ∀ component ∈ components path,
        component ≠ ".." → IsEntry component := by
    intro component hMem
    exact isEntry_of_mem_components hMem
  have hFold :=
    foldl_step_written (isRoot_rootOf path) hAll hNone
  rw [hStart] at hFold
  exact hFold

/- Only names of entries are kept of a path. -/
theorem isEntry_of_mem_kept
    {path name : String}
    (hMem : name ∈ kept path) :
    IsEntry name :=
  (foldl_components path).2 name hMem

/-
  To normalize a path is to write what is kept of it behind
  its root. Where nothing is written, the root is.
-/
theorem normalize_eq
    (path : String) :
    normalize path =
      if written (rootOf path) (kept path) = "" then
        "/"
      else
        written (rootOf path) (kept path) := by
  unfold normalize
  rw [(foldl_components path).1]

theorem rootOf_of_isAbsolute
    {path : String}
    (hPath : isAbsolute path = true) :
    rootOf path = "/" := by
  rw [rootOf, if_pos hPath]

theorem written_ne_empty
    (names : List String) :
    written "/" names ≠ "" := by
  intro hEmpty
  exact absurd (String.append_eq_empty_iff.1 hEmpty).1
    (by decide)

theorem normalize_of_isAbsolute
    {path : String}
    (hPath : isAbsolute path = true) :
    normalize path = written "/" (kept path) := by
  rw [normalize_eq, rootOf_of_isAbsolute hPath,
    if_neg (written_ne_empty _)]

/- An absolute path is normal once it is normalized. -/
theorem isNormal_normalize
    {path : String}
    (hPath : isAbsolute path = true) :
    IsNormal (normalize path) :=
  ⟨kept path, fun _ hMem => isEntry_of_mem_kept hMem,
    normalize_of_isAbsolute hPath⟩

theorem isAbsolute_append
    {first : String}
    (hFirst : first ≠ "")
    (second : String) :
    isAbsolute (first ++ second) = isAbsolute first := by
  unfold isAbsolute
  rw [String.toList_append]
  cases hList : first.toList with
  | nil =>
      exact absurd (String.toList_eq_nil_iff.1 hList) hFirst
  | cons c rest => rfl

theorem IsNormal.isAbsolute
    {path : String}
    (hPath : IsNormal path) :
    isAbsolute path = true := by
  rcases hPath with ⟨names, hNames, rfl⟩
  rw [written, isAbsolute_append (by decide)]
  decide

/- Names of entries are all kept. -/
theorem foldl_keep
    {names : List String}
    (hNames : ∀ name ∈ names, IsEntry name)
    (before : List String) :
    names.foldl keep before = before ++ names := by
  induction names generalizing before with
  | nil => simp
  | cons name rest ih =>
      rcases List.forall_mem_cons.1 hNames with
        ⟨hName, hOthers⟩
      have hKeep : keep before name = before ++ [name] := by
        rw [keep, if_neg hName.ne_up]
      rw [List.foldl_cons, hKeep, ih hOthers,
        List.append_assoc]
      rfl

/- Of names that are written all are kept. -/
theorem kept_written
    {names : List String}
    (hNames : ∀ name ∈ names, IsEntry name) :
    kept (written "/" names) = names := by
  rw [kept, components_written hNames, foldl_keep hNames,
    List.nil_append]

/- A normal path is left as it is. -/
theorem normalize_of_isNormal
    {path : String}
    (hPath : IsNormal path) :
    normalize path = path := by
  rw [normalize_of_isAbsolute hPath.isAbsolute]
  rcases hPath with ⟨names, hNames, rfl⟩
  rw [kept_written hNames]

theorem ne_empty_of_isAbsolute
    {path : String}
    (hPath : isAbsolute path = true) :
    path ≠ "" := by
  rintro rfl
  exact absurd hPath (by decide)

/- What is joined to an absolute path is absolute. -/
theorem isAbsolute_join
    {base : String}
    (hBase : isAbsolute base = true)
    (path : String) :
    isAbsolute (join base path) = true := by
  have hSome := ne_empty_of_isAbsolute hBase
  unfold join
  split
  case isTrue hPath =>
    exact hPath.resolve_right hSome
  case isFalse =>
    split
    · rw [isAbsolute_append hSome]
      exact hBase
    · rw [String.append_assoc, isAbsolute_append hSome]
      exact hBase

/- A path that is read in a normal directory is normal. -/
theorem isNormal_resolve
    {directory : String}
    (hDirectory : IsNormal directory)
    (raw : String) :
    IsNormal (resolve raw directory) :=
  isNormal_normalize
    (isAbsolute_join hDirectory.isAbsolute raw)

/- A normal path is the same in every directory. -/
theorem resolve_of_isNormal
    {path : String}
    (hPath : IsNormal path)
    (directory : String) :
    resolve path directory = path := by
  have hJoin : join directory path = path := by
    rw [join, if_pos (Or.inl hPath.isAbsolute)]
  rw [resolve, hJoin, normalize_of_isNormal hPath]

end Path

end LineShell

import LineShell.Proofs.Path.Normal

/-
  Joined paths. What a path adds to a directory goes on the
  stack of names that the directory has left. A path in two
  parts therefore leads to where its second part leads from
  the place of the first one, however far up either climbs.

  Key definitions include:
    * `Path.reached`

  Correctness is proven by:
    * `Path.components_join`
    * `Path.resolve_eq_written`
    * `Path.kept_resolve`
    * `Path.resolve_append`
-/

------------------------------------------------------------
-- Components of joined paths
------------------------------------------------------------

namespace LineShell

namespace Path

/- A path that ends in a slash is what stands before it. -/
theorem exists_append_slash
    {path : String}
    (hSlash : path.toList.getLast? = some '/') :
    ∃ front, path = front ++ "/" := by
  rcases List.getLast?_eq_some_iff.1 hSlash with
    ⟨chars, hChars⟩
  refine ⟨String.ofList chars, ?_⟩
  apply String.toList_inj.1
  rw [hChars, String.toList_append, String.toList_ofList]
  rfl

/-
  Behind a base come the components of a relative path. It
  makes no difference whether the base ends in a slash.
-/
theorem components_join
    {base path : String}
    (hBase : base ≠ "")
    (hPath : isAbsolute path = false) :
    components (join base path) =
      components base ++ components path := by
  unfold join
  rw [if_neg (by simp [hBase, hPath])]
  by_cases hSlash : base.toList.getLast? = some '/'
  · rw [if_pos hSlash]
    rcases exists_append_slash hSlash with ⟨front, rfl⟩
    rw [components_append, components_append_slash]
  · rw [if_neg hSlash, components_append]

end Path

end LineShell

------------------------------------------------------------
-- Where a path leads
------------------------------------------------------------

namespace LineShell

namespace Path

/-
  The names of the place to which a path leads in a
  directory. An absolute path starts without any, a relative
  one with those of the directory.
-/
def reached
    (raw directory : String) : List String :=
  (components raw).foldl keep
    (if isAbsolute raw then [] else kept directory)

/- Normalizing keeps the names that are kept of a path. -/
theorem kept_normalize
    {path : String}
    (hPath : isAbsolute path = true) :
    kept (normalize path) = kept path := by
  rw [normalize_of_isAbsolute hPath]
  apply kept_written
  intro name hMem
  exact isEntry_of_mem_kept hMem

section

variable
    {directory : String}
    (hDirectory : isAbsolute directory = true)

include hDirectory

theorem kept_join
    (raw : String) :
    kept (join directory raw) = reached raw directory := by
  unfold reached
  cases hRaw : isAbsolute raw with
  | true =>
      rw [join, if_pos (Or.inl hRaw)]
      rfl
  | false =>
      have hSome := ne_empty_of_isAbsolute hDirectory
      rw [kept, components_join hSome hRaw,
        List.foldl_append]
      rfl

/- A path is resolved to what is written of its names. -/
theorem resolve_eq_written
    (raw : String) :
    resolve raw directory =
      written "/" (reached raw directory) := by
  have hJoin := isAbsolute_join hDirectory raw
  rw [resolve, normalize_of_isAbsolute hJoin,
    kept_join hDirectory]

theorem kept_resolve
    (raw : String) :
    kept (resolve raw directory) =
      reached raw directory := by
  have hJoin := isAbsolute_join hDirectory raw
  rw [resolve, kept_normalize hJoin, kept_join hDirectory]

theorem isAbsolute_resolve
    (raw : String) :
    isAbsolute (resolve raw directory) = true := by
  have hJoin := isAbsolute_join hDirectory raw
  exact (isNormal_normalize hJoin).isAbsolute

/-
  A path in two parts reaches what its second part reaches
  from the place of the first one. The first part may not be
  empty, for then the slash would lead to the root.
-/
theorem resolve_append
    {first second : String}
    (hFirst : first ≠ "")
    (hSecond : isAbsolute second = false) :
    resolve (first ++ "/" ++ second) directory =
      resolve second (resolve first directory) := by
  have hWhole :
      isAbsolute (first ++ "/" ++ second) =
        isAbsolute first := by
    rw [String.append_assoc, isAbsolute_append hFirst]
  have hReached :
      reached (first ++ "/" ++ second) directory =
        (components second).foldl keep
          (reached first directory) := by
    unfold reached
    rw [hWhole, components_append, List.foldl_append]
  have hAfter :
      reached second (resolve first directory) =
        (components second).foldl keep
          (reached first directory) := by
    rw [← kept_resolve hDirectory, reached, hSecond]
    rfl
  rw [resolve_eq_written hDirectory,
    resolve_eq_written (isAbsolute_resolve hDirectory first),
    hReached, hAfter]

end

/- An absolute path leads to one place from everywhere. -/
theorem resolve_of_isAbsolute
    {path : String}
    (hPath : isAbsolute path = true)
    (directory : String) :
    resolve path directory = normalize path := by
  rw [resolve, join, if_pos (Or.inl hPath)]

end Path

end LineShell

import LineShell.Proofs.FileSystem.Clear

/-
  What making a directory with its parents leaves behind. It
  succeeds exactly if the path is clear, and then the path
  names a directory. What is new is a directory at the path
  or at one above it.

  Correctness is proven by:
    * `FileSystem.makeDirectories_of_namesDirectory`
    * `FileSystem.namesDirectory_of_isClear`
    * `FileSystem.fault_makeDirectories_iff`
    * `FileSystem.exists_locate_makeChain`
-/

------------------------------------------------------------
-- Making one directory
------------------------------------------------------------

namespace LineShell

namespace FileSystem

variable
    {files made : FileSystem}
    {path : String}

/- A free name becomes a directory, and nothing else does. -/
theorem makeDirectory_of_vacant
    {directory : Location}
    {name : Name}
    (hLocate :
      files.locate .keep path =
        .ok (.vacant directory name)) :
    ∃ made,
      files.makeDirectory path = .ok made ∧
        made.IsWith files (name :: directory) .directory := by
  rcases isIn_of_locate hLocate with ⟨hHolder, hFree⟩
  have hOld :
      files.get? (name :: directory) ≠ some .directory := by
    rw [hFree]
    simp
  rcases exists_put hHolder hOld .directory with
    ⟨made, hPut, hWith⟩
  refine ⟨made, ?_, hWith⟩
  unfold makeDirectory make
  simp only [hLocate, bind, Except.bind]
  rw [mapError_eq_ok_iff]
  exact hPut

theorem makeDirectory_of_found
    {location : Location}
    {node : Node}
    (hLocate :
      files.locate .keep path =
        .ok (.found location node)) :
    files.makeDirectory path =
      .error (.refused .exists) := by
  simp [makeDirectory, make, hLocate, bind, Except.bind]

theorem makeDirectory_of_error
    {cause : FileError}
    (hLocate : files.locate .keep path = .error cause) :
    files.makeDirectory path = .error cause := by
  simp [makeDirectory, make, hLocate, bind, Except.bind]

/- A directory that was made is where its name was free. -/
theorem exists_vacant_of_makeDirectory
    (hMake : files.makeDirectory path = .ok made) :
    ∃ directory name,
      files.locate .keep path =
          .ok (.vacant directory name) ∧
        made.IsWith files (name :: directory)
          .directory := by
  cases hLocate : files.locate .keep path with
  | error cause =>
      rw [makeDirectory_of_error hLocate] at hMake
      cases hMake
  | ok spot =>
      cases spot with
      | found location node =>
          rw [makeDirectory_of_found hLocate] at hMake
          cases hMake
      | vacant directory name =>
          rcases makeDirectory_of_vacant hLocate with
            ⟨other, hOther, hWith⟩
          rw [hOther, Except.ok.injEq] at hMake
          subst hMake
          exact ⟨directory, name, rfl, hWith⟩

/- But for what is there, the walk has failed already. -/
theorem locate_of_makeDirectory_error
    {cause : FileError}
    (hMake : files.makeDirectory path = .error cause)
    (hOther : cause ≠ .refused .exists) :
    files.locate .keep path = .error cause := by
  cases hLocate : files.locate .keep path with
  | error fault =>
      rw [makeDirectory_of_error hLocate,
        Except.error.injEq] at hMake
      rw [hMake]
  | ok spot =>
      cases spot with
      | found location node =>
          rw [makeDirectory_of_found hLocate] at hMake
          cases hMake
          exact absurd rfl hOther
      | vacant directory name =>
          rcases makeDirectory_of_vacant hLocate with
            ⟨made, hMade, hWith⟩
          rw [hMade] at hMake
          cases hMake

/- A new entry is the directory to which the path leads. -/
theorem exists_locate_makeDirectory
    {location : Location}
    {node : Node}
    (hMake : files.makeDirectory path = .ok made)
    (hFree : files.get? location = none)
    (hNode : made.get? location = some node) :
    node = .directory ∧
      made.locate .follow path =
        .ok (.found location .directory) := by
  rcases exists_vacant_of_makeDirectory hMake with
    ⟨directory, name, hLocate, hWith⟩
  have hPlace : location = name :: directory := by
    apply Classical.byContradiction
    intro hOther
    rw [hWith.kept location hOther, hFree] at hNode
    cases hNode
  subst hPlace
  rw [hWith.changed, Option.some.injEq] at hNode
  refine ⟨hNode.symm, ?_⟩
  rcases locate_eq_ok_iff.1 hLocate with
    ⟨hSearchable, hLeads⟩
  have hFound := hLeads.of_keeps (keeps_make hMake)
  rw [hWith.changed] at hFound
  exact locate_follow_of_keep
    (locate_eq_ok_iff.2 ⟨hSearchable, hFound⟩) (by simp)

end FileSystem

end LineShell

------------------------------------------------------------
-- Making parents first
------------------------------------------------------------

namespace LineShell

namespace FileSystem

open LineShell.Path (IsEntry IsRoot written)

variable
    {files : FileSystem}
    {root name : String}
    {names : List String}
    {directory : Location}

/- A free name in a directory becomes an empty one. -/
theorem LeadsDown.exists_makeDirectory
    (hDown : files.LeadsDown names directory)
    (hRoot : IsRoot root)
    (hNames : ∀ other ∈ names ++ [name], IsEntry other)
    (hIs : IsName name)
    (hSearchable :
      IsSearchable (written root (names ++ [name])))
    (hFree : files.get? (⟨name, hIs⟩ :: directory) = none) :
    ∃ made,
      files.makeDirectory (written root (names ++ [name])) =
          .ok made ∧
        made.LeadsDown (names ++ [name])
          (⟨name, hIs⟩ :: directory) ∧
        ∀ child,
          made.get? (child :: ⟨name, hIs⟩ :: directory) =
            none := by
  have hLocate :=
    hDown.locate_keep hRoot hNames hIs hSearchable
  rw [spotAt, hFree] at hLocate
  rcases makeDirectory_of_vacant hLocate with
    ⟨made, hMade, hWith⟩
  have hAfter : made.LeadsDown names directory :=
    hDown.found_of_keeps (get?_nil files) (keeps_make hMade)
  refine ⟨made, hMade, ?_, ?_⟩
  · exact hAfter.concat (hNames name (by simp)) hIs
      hWith.changed
  · intro child
    rw [hWith.kept _ (by simp)]
    cases hChild :
        files.get? (child :: ⟨name, hIs⟩ :: directory) with
    | none => rfl
    | some node =>
        have hHolder := get?_tail hChild
        rw [List.tail_cons, hFree] at hHolder
        cases hHolder

/-
  Where a directory is refused and its parent is not what is
  wanting, nothing is made.
-/
theorem makeChain_of_refused
    {path : String}
    {cause : FileError}
    (parents : List String)
    (hCause : files.makeDirectory path = .error cause)
    (hOther : cause ≠ .refused .noEntry) :
    files.makeChain (path :: parents) =
      ⟨files,
        if files.isDirectoryAt path then none
        else some cause⟩ := by
  rw [makeChain, hCause]
  split
  case h_1 hMade => cases hMade
  case h_2 hMissing =>
    cases hMissing
    exact absurd rfl hOther
  case h_3 hOther hSame =>
    cases hSame
    split <;> rfl

/- Where there is a directory nothing is made. -/
theorem makeChain_of_namesDirectory
    (hRoot : IsRoot root)
    (hNames : ∀ other ∈ names ++ [name], IsEntry other)
    (hDirectory :
      files.NamesDirectory
        (written root (names ++ [name]))) :
    files.makeChain
        (Path.upward (written root (names ++ [name]))) =
      ⟨files, none⟩ := by
  have hIsDirectory := isDirectoryAt_iff.2 hDirectory
  rcases nodeAt_eq_ok_iff.1
      (nodeAt_directory_iff.2 hDirectory) with
    ⟨place, hFollow⟩
  rcases exists_found_keep hRoot hNames hFollow with
    ⟨location, node, hLocate⟩
  rw [Path.upward_written hRoot hNames,
    makeChain_of_refused _ (makeDirectory_of_found hLocate)
      (by simp), if_pos hIsDirectory]

/-
  What has nothing in its way and is no directory yet ends
  up as an empty one.
-/
theorem makeChain_of_isClear
    (hRoot : IsRoot root)
    (hNames : ∀ other ∈ names, IsEntry other)
    (hClear : files.IsClear (written root names))
    (hNone : ∀ location, ¬ files.LeadsDown names location) :
    ∃ made location,
      files.makeChain (Path.upward (written root names)) =
          ⟨made, none⟩ ∧
        made.LeadsDown names location ∧
        ∀ child, made.get? (child :: location) = none := by
  induction names using List.reverseRec with
  | nil => exact absurd .nil (hNone [])
  | append_singleton names name ih =>
      have hFront := (List.forall_mem_append.1 hNames).1
      have hMissing :=
        (hClear.leadsDown_or_isMissing hRoot
          hNames).resolve_left (not_exists.2 hNone)
      rw [isClear_concat_iff hRoot hNames] at hClear
      rcases hClear with ⟨hFree, hAbove⟩
      rcases usable_of_not_isBlocked hRoot hNames hFree with
        ⟨hIs, hSearchable⟩
      rw [Path.upward_written hRoot hNames, makeChain]
      by_cases hHolder :
        ∃ location, files.LeadsDown names location
      case pos =>
        rcases hHolder with ⟨location, hDown⟩
        have hVacant :
            files.get? (⟨name, hIs⟩ :: location) = none := by
          rw [map_ofText_concat (hNames name (by simp)) hIs,
            hDown.keep_append.walk_eq, spotAt] at hMissing
          split at hMissing
          case h_1 hVacant => exact hVacant
          case h_2 => exact hMissing.elim
        rcases hDown.exists_makeDirectory hRoot hNames hIs
            hSearchable hVacant with
          ⟨made, hMade, hThere, hEmpty⟩
        rw [hMade]
        exact ⟨made, _, rfl, hThere, hEmpty⟩
      case neg =>
        have hGone :=
          (hAbove.leadsDown_or_isMissing hRoot
            hFront).resolve_left hHolder
        have hLocate :
            files.locate .keep
                (written root (names ++ [name])) =
              .error (.refused .noEntry) := by
          rw [locate_of_isSearchable hSearchable,
            Step.ofPath_written hRoot (by simp) hNames,
            List.map_append,
            walk_append_of_isMissing hGone (by simp)]
          rfl
        rcases ih hFront hAbove (not_exists.1 hHolder) with
          ⟨before, location, hBefore, hDown, hNoChild⟩
        rcases hDown.exists_makeDirectory hRoot hNames hIs
            hSearchable (hNoChild _) with
          ⟨made, hMade, hThere, hEmpty⟩
        rw [makeDirectory_of_error hLocate]
        dsimp only
        rw [hBefore]
        dsimp only
        rw [hMade]
        exact ⟨made, _, rfl, hThere, hEmpty⟩

/- Where the parents are not made, nothing is. -/
theorem fault_makeChain_of_parents
    {path : String}
    {parents : List String}
    (hMissing :
      files.makeDirectory path = .error (.refused .noEntry))
    (hParents : (files.makeChain parents).fault ≠ none) :
    (files.makeChain (path :: parents)).fault ≠ none := by
  rw [makeChain, hMissing]
  dsimp only
  split
  case h_1 => exact hParents
  case h_2 hDone => exact absurd hDone hParents

/- Nothing is made at a path with an unusable text. -/
theorem fault_makeChain_of_isUnusable
    {path : String}
    (parents : List String)
    (hText : Path.IsUnusable path) :
    (files.makeChain (path :: parents)).fault ≠ none := by
  have hError :
      ∀ files : FileSystem,
        ∃ cause, files.makeDirectory path = .error cause := by
    intro files
    cases hMade : files.makeDirectory path with
    | error cause => exact ⟨cause, rfl⟩
    | ok made =>
        rcases exists_vacant_of_makeDirectory hMade with
          ⟨holder, free, hLocate, hWith⟩
        exact absurd hText
          (not_isUnusable_of_locate hLocate)
  have hNoDirectory :
      ∀ files : FileSystem,
        ¬ files.isDirectoryAt path = true := by
    intro files
    rw [isDirectoryAt_iff]
    intro hDirectory
    exact hDirectory.not_isBlocked (.unusable hText)
  rcases hError files with ⟨cause, hCause⟩
  by_cases hMissing : cause = .refused .noEntry
  case neg =>
    rw [makeChain_of_refused _ hCause hMissing,
      if_neg (hNoDirectory files)]
    simp
  case pos =>
    rw [hMissing] at hCause
    by_cases hParents : (files.makeChain parents).fault = none
    case neg => exact fault_makeChain_of_parents hCause hParents
    case pos =>
      rcases hError (files.makeChain parents).files with
        ⟨fault, hFault⟩
      rw [makeChain, hCause]
      dsimp only
      rw [hParents]
      dsimp only
      rw [hFault]
      dsimp only
      rw [if_neg (hNoDirectory _)]
      simp

/- What has something in its way is not made. -/
theorem fault_makeChain_of_not_isClear
    (hRoot : IsRoot root)
    (hNames : ∀ other ∈ names, IsEntry other)
    (hBlocked : ¬ files.IsClear (written root names)) :
    (files.makeChain
      (Path.upward (written root names))).fault ≠
        none := by
  induction names using List.reverseRec with
  | nil => exact absurd (isClear_root hRoot) hBlocked
  | append_singleton names name ih =>
      have hFront := (List.forall_mem_append.1 hNames).1
      have hNoDirectory :
          ¬ files.isDirectoryAt
              (written root (names ++ [name])) =
            true := by
        rw [isDirectoryAt_iff]
        intro hDirectory
        exact hBlocked
          (isClear_of_namesDirectory hRoot hNames
            fun _ => hDirectory)
      have hCause :
          ∃ cause,
            files.makeDirectory
                (written root (names ++ [name])) =
              .error cause := by
        cases hMade :
            files.makeDirectory
              (written root (names ++ [name])) with
        | error cause => exact ⟨cause, rfl⟩
        | ok made =>
            rcases exists_vacant_of_makeDirectory hMade with
              ⟨holder, free, hVacant, hWith⟩
            exact absurd
              (isClear_of_vacant hRoot hNames hVacant)
              hBlocked
      rcases hCause with ⟨cause, hCause⟩
      rw [Path.upward_written hRoot hNames]
      by_cases hMissing : cause = .refused .noEntry
      case pos =>
        rw [hMissing] at hCause
        by_cases hHere :
          files.IsBlocked (written root (names ++ [name]))
        case pos =>
          have hLocate :=
            locate_of_makeDirectory_error hCause (by simp)
          rcases hHere.found_or_unusable hRoot hNames with
            ⟨location, node, hFound⟩ | hText
          · rw [hLocate] at hFound
            cases hFound
          · exact fault_makeChain_of_isUnusable _ hText
        case neg =>
          apply fault_makeChain_of_parents hCause
          apply ih hFront
          intro hAbove
          exact hBlocked
            ((isClear_concat_iff hRoot hNames).2
              ⟨hHere, hAbove⟩)
      case neg =>
        rw [makeChain_of_refused _ hCause hMissing,
          if_neg hNoDirectory]
        simp

end FileSystem

end LineShell

------------------------------------------------------------
-- Making a path
------------------------------------------------------------

namespace LineShell

namespace FileSystem

open LineShell.Path (IsEntry IsRoot written)

variable
    {files : FileSystem}
    {path : String}

/- The root is a directory. -/
theorem namesDirectory_root :
    files.NamesDirectory "/" :=
  ⟨⟨by decide, by decide, by decide⟩, [], .slash .arrive⟩

/- Where there is a directory nothing is made. -/
theorem makeDirectories_of_namesDirectory
    (hPlain : Path.IsPlain path)
    (hDirectory : files.NamesDirectory path) :
    files.makeDirectories path = ⟨files, none⟩ := by
  cases hPlain with
  | root => rfl
  | @named root names hRoot hSome hNames =>
      rcases List.eq_nil_or_concat names with
        rfl | ⟨front, name, rfl⟩
      · exact absurd rfl hSome
      · rw [List.concat_eq_append] at hNames hDirectory ⊢
        exact makeChain_of_namesDirectory hRoot hNames
          hDirectory

/-
  A path with nothing in its way names a directory once it
  is made.
-/
theorem namesDirectory_of_isClear
    (hPlain : Path.IsPlain path)
    (hClear : files.IsClear path) :
    (files.makeDirectories path).fault = none ∧
      (files.makeDirectories path).files.NamesDirectory
        path := by
  cases hPlain with
  | root => exact ⟨rfl, namesDirectory_root⟩
  | @named root names hRoot hSome hNames =>
      have hSearchable : IsSearchable (written root names) := by
        rcases List.eq_nil_or_concat names with
          rfl | ⟨front, name, rfl⟩
        · exact absurd rfl hSome
        · rw [List.concat_eq_append] at hNames hClear ⊢
          rw [isClear_concat_iff hRoot hNames] at hClear
          exact
            (usable_of_not_isBlocked hRoot hNames
              hClear.1).2
      by_cases hDown :
        ∃ location, files.LeadsDown names location
      case pos =>
        have hDirectory :=
          (namesDirectory_written_iff hRoot hSome
            hNames).2 ⟨hSearchable, hDown⟩
        rw [makeDirectories_of_namesDirectory
          (.named hRoot hSome hNames) hDirectory]
        exact ⟨rfl, hDirectory⟩
      case neg =>
        rcases makeChain_of_isClear hRoot hNames hClear
            (not_exists.1 hDown) with
          ⟨made, location, hMade, hThere, hEmpty⟩
        rw [makeDirectories, hMade]
        exact ⟨rfl,
          (namesDirectory_written_iff hRoot hSome hNames).2
            ⟨hSearchable, location, hThere⟩⟩

/- It succeeds exactly if nothing is in the way. -/
theorem fault_makeDirectories_iff
    (hPlain : Path.IsPlain path) :
    (files.makeDirectories path).fault = none ↔
      files.IsClear path := by
  constructor
  · intro hDone
    apply Classical.byContradiction
    intro hBlocked
    cases hPlain with
    | root => exact hBlocked isClear_slash
    | named hRoot hSome hNames =>
        exact fault_makeChain_of_not_isClear hRoot hNames
          hBlocked hDone
  · intro hClear
    exact (namesDirectory_of_isClear hPlain hClear).1

/- What is new is a directory at one of the paths. -/
theorem exists_locate_makeChain
    {paths : List String}
    {location : Location}
    {node : Node}
    (hFree : files.get? location = none)
    (hNode :
      (files.makeChain paths).files.get? location =
        some node) :
    node = .directory ∧
      ∃ path ∈ paths,
        (files.makeChain paths).files.locate .follow path =
          .ok (.found location .directory) := by
  induction paths generalizing node with
  | nil =>
      rw [makeChain, hFree] at hNode
      cases hNode
  | cons path parents ih =>
      rcases files.makeChain_cases path parents with
        ⟨before, hBefore, hAfter⟩
      -- What the parents left has been made for one of them.
      have hParents :
          ∀ node,
            before.get? location = some node →
              node = .directory ∧
                ∃ path ∈ parents,
                  before.locate .follow path =
                    .ok (.found location .directory) := by
        intro node hThere
        rcases hBefore with rfl | rfl
        · rw [hFree] at hThere
          cases hThere
        · exact ih hThere
      generalize (files.makeChain (path :: parents)).files =
        after at hNode hAfter ⊢
      rcases hAfter with rfl | hMade
      · rcases hParents node hNode with
          ⟨hDirectory, other, hMem, hOther⟩
        exact ⟨hDirectory, other,
          List.mem_cons_of_mem path hMem, hOther⟩
      · have hKeeps := keeps_make hMade
        cases hOld : before.get? location with
        | some old =>
            rcases hParents old hOld with
              ⟨rfl, other, hMem, hOther⟩
            rw [hKeeps location _ hOld,
              Option.some.injEq] at hNode
            exact ⟨hNode.symm, other,
              List.mem_cons_of_mem path hMem,
              hKeeps.locate_found hOther⟩
        | none =>
            rcases exists_locate_makeDirectory hMade hOld
                hNode with
              ⟨hDirectory, hHere⟩
            exact ⟨hDirectory, path, List.mem_cons_self,
              hHere⟩

end FileSystem

end LineShell

import Mathlib.Data.List.Induction
import LineShell.Proofs.FileSystem.Descent
import LineShell.Proofs.FileSystem.Growing

/-
  What may be in the way of a directory that is to be made.
  A path is clear if nothing is in its way or in the way of
  a path above it: then it leads to a directory, or to a
  name that is free yet. New directories leave it clear.

  Key definitions include:
    * `Path.IsUnusable`
    * `FileSystem.IsBlocked`
    * `FileSystem.IsClear`
    * `FileSystem.AddsTo`

  Correctness is proven by:
    * `FileSystem.isClear_of_namesDirectory`
    * `FileSystem.isClear_of_vacant`
    * `FileSystem.IsClear.leadsDown_or_isMissing`
    * `FileSystem.AddsTo.isClear`
-/

------------------------------------------------------------
-- What is in the way
------------------------------------------------------------

namespace LineShell

/-
  A text that names nothing in any file system: it holds a
  NUL, or it is too long, or one of its names is.
-/
inductive Path.IsUnusable
    (path : String) : Prop where
  | nul
      (hNul : '\x00' ∈ path.toList)
  | longPath
      (hLong : pathBytesLimit ≤ path.utf8ByteSize)
  | longName
      {name : String}
      (hMem : name ∈ Path.components path)
      (hLong : maxNameBytes < name.utf8ByteSize)

namespace FileSystem

open LineShell.Path (IsEntry IsRoot IsUnusable written)

/-
  Nothing can be made at a path or below it: its text cannot
  be looked up, or there is something else than a directory,
  or there is a link that dangles or loops. A row of more
  links than are followed is as good as a loop.
-/
inductive IsBlocked
    (files : FileSystem)
    (path : String) : Prop where
  | unusable
      (hText : Path.IsUnusable path)
  | occupied
      {node : Node}
      (hNode : files.nodeAt path = .ok node)
      (hOther : node ≠ .directory)
  | brokenLink
      {target : RawText}
      (hLink : files.linkNodeAt path = .ok (.link target))
      (hBroken : ∀ node, files.nodeAt path ≠ .ok node)

/- Nothing is in the way of a path or of those above it. -/
def IsClear
    (files : FileSystem)
    (path : String) : Prop :=
  ∀ above ∈ Path.upward path, ¬ files.IsBlocked above

variable
    {files : FileSystem}
    {path root name : String}
    {names : List String}
    {directory : Location}

/- What is found has a text that can be looked up. -/
theorem not_isUnusable_of_locate
    {last : LastStep}
    {spot : Spot}
    (hLocate : files.locate last path = .ok spot) :
    ¬ IsUnusable path := by
  rcases locate_eq_ok_iff.1 hLocate with
    ⟨⟨hNul, hText, hShort⟩, hLeads⟩
  intro hUnusable
  cases hUnusable with
  | nul hMem => exact hNul hMem
  | longPath hLong => exact Nat.not_le.2 hShort hLong
  | longName hMem hLong =>
      exact hLeads.unusable_not_mem
        (Step.unusable_mem_ofPath hMem hLong)

/- A directory is not in the way. -/
theorem NamesDirectory.not_isBlocked
    (hDirectory : files.NamesDirectory path) :
    ¬ files.IsBlocked path := by
  have hNode := nodeAt_directory_iff.2 hDirectory
  intro hBlocked
  cases hBlocked with
  | unusable hText =>
      rcases nodeAt_eq_ok_iff.1 hNode with
        ⟨location, hLocate⟩
      exact not_isUnusable_of_locate hLocate hText
  | occupied hOther hNot =>
      rw [hNode, Except.ok.injEq] at hOther
      exact hNot hOther.symm
  | brokenLink hLink hBroken => exact hBroken _ hNode

/- An entry that is no directory is in the way. -/
theorem isBlocked_of_found
    {location : Location}
    {node : Node}
    (hLocate :
      files.locate .keep path =
        .ok (.found location node))
    (hNot : ¬ files.NamesDirectory path) :
    files.IsBlocked path := by
  have hOther :
      ∀ node,
        files.nodeAt path = .ok node →
          node ≠ .directory := by
    rintro node hNode rfl
    exact hNot (nodeAt_directory_iff.1 hNode)
  by_cases hSome : ∃ node, files.nodeAt path = .ok node
  case pos =>
    rcases hSome with ⟨there, hThere⟩
    exact .occupied hThere (hOther there hThere)
  case neg =>
    -- Only a link leads to nothing while it is there.
    have hBroken : ∀ node, files.nodeAt path ≠ .ok node :=
      not_exists.1 hSome
    have hLink : ∃ target, node = .link target := by
      apply Classical.byContradiction
      intro hNoLink
      have hFollow :
          files.locate .follow path =
            .ok (.found location node) := by
        apply locate_follow_of_keep hLocate
        rintro place target hSpot
        cases hSpot
        exact hNoLink ⟨target, rfl⟩
      exact hBroken node
        (nodeAt_eq_ok_iff.2 ⟨location, hFollow⟩)
    rcases hLink with ⟨target, rfl⟩
    exact .brokenLink
      (linkNodeAt_eq_ok_iff.2 ⟨location, hLocate⟩) hBroken

/- But for its text, a path is blocked by what is there. -/
theorem IsBlocked.found_or_unusable
    (hBlocked :
      files.IsBlocked (written root (names ++ [name])))
    (hRoot : IsRoot root)
    (hNames : ∀ other ∈ names ++ [name], IsEntry other) :
    (∃ location node,
      files.locate .keep (written root (names ++ [name])) =
        .ok (.found location node)) ∨
      IsUnusable (written root (names ++ [name])) := by
  cases hBlocked with
  | unusable hText => exact Or.inr hText
  | occupied hNode hOther =>
      rcases nodeAt_eq_ok_iff.1 hNode with ⟨place, hFollow⟩
      exact Or.inl (exists_found_keep hRoot hNames hFollow)
  | brokenLink hLink hBroken =>
      rcases linkNodeAt_eq_ok_iff.1 hLink with
        ⟨location, hLocate⟩
      exact Or.inl ⟨location, _, hLocate⟩

/- Nothing is in the way of the root. -/
theorem isClear_root
    (hRoot : IsRoot root) :
    files.IsClear (written root []) := by
  unfold IsClear
  rw [Path.upward_root hRoot]
  simp

theorem isClear_slash :
    files.IsClear "/" := by
  have hNone : Path.upward "/" = [] := by decide
  unfold IsClear
  rw [hNone]
  simp

/- What is in the way of a path is there or above it. -/
theorem isClear_concat_iff
    (hRoot : IsRoot root)
    (hNames : ∀ other ∈ names ++ [name], IsEntry other) :
    files.IsClear (written root (names ++ [name])) ↔
      ¬ files.IsBlocked (written root (names ++ [name])) ∧
        files.IsClear (written root names) := by
  unfold IsClear
  rw [Path.upward_written hRoot hNames,
    List.forall_mem_cons]

/- What is not blocked can be looked up by its last name. -/
theorem usable_of_not_isBlocked
    (hRoot : IsRoot root)
    (hNames : ∀ other ∈ names ++ [name], IsEntry other)
    (hFree :
      ¬ files.IsBlocked (written root (names ++ [name]))) :
    IsName name ∧
      IsSearchable (written root (names ++ [name])) := by
  have hName := hNames name (by simp)
  have hText :=
    Path.written_append_ne_empty root names hName.ne_empty
  have hNul :
      '\x00' ∉ (written root (names ++ [name])).toList :=
    fun hMem => hFree (.unusable (.nul hMem))
  have hShort :
      (written root (names ++ [name])).utf8ByteSize <
        pathBytesLimit :=
    Nat.lt_of_not_le fun hLong =>
      hFree (.unusable (.longPath hLong))
  refine ⟨isName_ofText_iff.2 ⟨hName.ne_empty, hName.ne_dot,
    hName.ne_up, ?_, hName.no_slash, ?_⟩, hNul, hText,
    hShort⟩
  · apply Nat.le_of_not_lt
    intro hLong
    refine hFree (.unusable (.longName ?_ hLong))
    rw [Path.components_written_of_isRoot hRoot hNames]
    simp
  · exact fun hMem =>
      hNul (Path.mem_toList_written (by simp) hMem)

/- Above a directory there are only directories. -/
theorem NamesDirectory.front
    (hDirectory :
      files.NamesDirectory (written root (names ++ [name])))
    (hRoot : IsRoot root)
    (hNames : ∀ other ∈ names ++ [name], IsEntry other)
    (hSome : names ≠ []) :
    files.NamesDirectory (written root names) := by
  have hFront := (List.forall_mem_append.1 hNames).1
  rw [namesDirectory_written_iff hRoot (by simp) hNames]
    at hDirectory
  rw [namesDirectory_written_iff hRoot hSome hFront]
  rcases hDirectory with ⟨hSearchable, location, hDown⟩
  exact ⟨Path.isSearchable_front hSome hFront hSearchable,
    (exists_leadsDown (hNames name (by simp)) hDown).2⟩

/- Nothing is in the way of a directory. -/
theorem isClear_of_namesDirectory
    (hRoot : IsRoot root)
    (hNames : ∀ other ∈ names, IsEntry other)
    (hDirectory :
      names ≠ [] →
        files.NamesDirectory (written root names)) :
    files.IsClear (written root names) := by
  induction names using List.reverseRec with
  | nil => exact isClear_root hRoot
  | append_singleton names name ih =>
      have hThere := hDirectory (by simp)
      rw [isClear_concat_iff hRoot hNames]
      refine ⟨hThere.not_isBlocked, ih ?_ ?_⟩
      · exact (List.forall_mem_append.1 hNames).1
      · intro hSome
        exact hThere.front hRoot hNames hSome

/- Nothing is in the way of a free name. -/
theorem isClear_of_vacant
    {free : Name}
    (hRoot : IsRoot root)
    (hNames : ∀ other ∈ names ++ [name], IsEntry other)
    (hLocate :
      files.locate .keep (written root (names ++ [name])) =
        .ok (.vacant directory free)) :
    files.IsClear (written root (names ++ [name])) := by
  have hFront := (List.forall_mem_append.1 hNames).1
  rcases locate_eq_ok_iff.1 hLocate with
    ⟨hSearchable, hLeads⟩
  rw [isClear_concat_iff hRoot hNames]
  constructor
  · intro hBlocked
    rcases hBlocked.found_or_unusable hRoot hNames with
      ⟨location, node, hFound⟩ | hText
    · rw [hLocate] at hFound
      cases hFound
    · exact not_isUnusable_of_locate hLocate hText
  · apply isClear_of_namesDirectory hRoot hFront
    intro hSome
    rw [Step.ofPath_written hRoot (by simp) hNames]
      at hLeads
    rw [namesDirectory_written_iff hRoot hSome hFront]
    exact ⟨Path.isSearchable_front hSome hFront hSearchable,
      (exists_leadsDown (hNames name (by simp)) hLeads).2⟩

/-
  Names with nothing in their way lead to a directory, or
  there is nothing yet where they lead.
-/
theorem IsClear.leadsDown_or_isMissing
    (hClear : files.IsClear (written root names))
    (hRoot : IsRoot root)
    (hNames : ∀ other ∈ names, IsEntry other) :
    (∃ location, files.LeadsDown names location) ∨
      IsMissing
        (files.walk .keep maxLinks []
          (names.map Step.ofText)) := by
  induction names using List.reverseRec with
  | nil => exact Or.inl ⟨[], .nil⟩
  | append_singleton names name ih =>
      rw [isClear_concat_iff hRoot hNames] at hClear
      rcases hClear with ⟨hFree, hAbove⟩
      rcases usable_of_not_isBlocked hRoot hNames hFree with
        ⟨hIs, hSearchable⟩
      have hFront := (List.forall_mem_append.1 hNames).1
      rcases ih hAbove hFront with
        ⟨location, hDown⟩ | hMissing
      · have hLocate :=
          hDown.locate_keep hRoot hNames hIs hSearchable
        unfold spotAt at hLocate
        split at hLocate
        case h_1 hNone =>
          rw [locate_written_iff hRoot (by simp) hNames]
            at hLocate
          refine Or.inr ?_
          rw [hLocate.2.walk_eq]
          trivial
        case h_2 node hNode =>
          have hDirectory :
              files.NamesDirectory
                (written root (names ++ [name])) := by
            apply Classical.byContradiction
            intro hNot
            exact hFree (isBlocked_of_found hLocate hNot)
          rw [namesDirectory_written_iff hRoot (by simp)
            hNames] at hDirectory
          exact Or.inl hDirectory.2
      · refine Or.inr ?_
        rw [List.map_append,
          walk_append_of_isMissing hMissing (by simp)]
        rfl

end FileSystem

end LineShell

------------------------------------------------------------
-- New directories
------------------------------------------------------------

namespace LineShell

namespace FileSystem

open LineShell.Path (IsEntry IsRoot written)

/- One file system is another one with more directories. -/
structure AddsTo
    (after files : FileSystem) : Prop where
  keeps : files.Keeps after
  directory :
    ∀ location node,
      files.get? location = none →
        after.get? location = some node →
          node = .directory

namespace AddsTo

variable
    {files after : FileSystem}
    {root name : String}
    {names : List String}

/-
  What is found among new directories is new as well, or the
  path has named a directory before.
-/
theorem namesDirectory_or_free
    {location : Location}
    {node : Node}
    (hAdds : after.AddsTo files)
    (hRoot : IsRoot root)
    (hNames : ∀ other ∈ names ++ [name], IsEntry other)
    (hFree :
      ¬ files.IsBlocked (written root (names ++ [name])))
    (hNew :
      ∀ holder,
        after.LeadsDown names holder →
          (∀ old, ¬ files.LeadsDown names old) →
            files.get? holder = none)
    (hLocate :
      after.locate .keep (written root (names ++ [name])) =
        .ok (.found location node)) :
    files.NamesDirectory (written root (names ++ [name])) ∨
      files.get? location = none := by
  cases hOld : files.get? location with
  | none => exact Or.inr rfl
  | some entry =>
      rcases exists_holder_of_found hRoot hNames hLocate with
        ⟨hIs, holder, rfl, hDown⟩
      have hHolder := get?_tail hOld
      rw [List.tail_cons] at hHolder
      have hBefore :
          ∃ old, files.LeadsDown names old := by
        apply Classical.byContradiction
        intro hNone
        rw [hNew holder hDown (not_exists.1 hNone)]
          at hHolder
        cases hHolder
      rcases hBefore with ⟨old, hBefore⟩
      -- The names lead to the same directory as before.
      have hStill : after.LeadsDown names old :=
        hBefore.found_of_keeps (get?_nil files) hAdds.keeps
      rw [hDown.unique hStill] at hBefore
      have hThere :=
        hBefore.locate_keep hRoot hNames hIs
          (usable_of_not_isBlocked hRoot hNames hFree).2
      rw [spotAt, hOld] at hThere
      apply Or.inl
      apply Classical.byContradiction
      intro hNot
      exact hFree (isBlocked_of_found hThere hNot)

/- What is found there is a directory. -/
theorem namesDirectory_of_found
    {location : Location}
    {node : Node}
    (hAdds : after.AddsTo files)
    (hRoot : IsRoot root)
    (hNames : ∀ other ∈ names ++ [name], IsEntry other)
    (hFree :
      ¬ files.IsBlocked (written root (names ++ [name])))
    (hNew :
      ∀ holder,
        after.LeadsDown names holder →
          (∀ old, ¬ files.LeadsDown names old) →
            files.get? holder = none)
    (hLocate :
      after.locate .keep (written root (names ++ [name])) =
        .ok (.found location node)) :
    after.NamesDirectory (written root (names ++ [name])) := by
  rcases hAdds.namesDirectory_or_free hRoot hNames hFree
      hNew hLocate with
    hOld | hNone
  · exact hAdds.keeps.namesDirectory hOld
  · have hNode : after.get? location = some node :=
      isIn_of_locate hLocate
    rw [hAdds.directory location node hNone hNode]
      at hLocate
    rw [← nodeAt_directory_iff, nodeAt_eq_ok_iff]
    exact ⟨location,
      locate_follow_of_keep hLocate (by simp)⟩

/- Where new directories lead there was nothing before. -/
theorem get?_of_leadsDown
    {location : Location}
    (hAdds : after.AddsTo files)
    (hRoot : IsRoot root)
    (hNames : ∀ other ∈ names, IsEntry other)
    (hClear : files.IsClear (written root names))
    (hDown : after.LeadsDown names location)
    (hNone : ∀ old, ¬ files.LeadsDown names old) :
    files.get? location = none := by
  induction names using List.reverseRec
    generalizing location with
  | nil => exact absurd .nil (hNone [])
  | append_singleton names name ih =>
      have hFront := (List.forall_mem_append.1 hNames).1
      rw [isClear_concat_iff hRoot hNames] at hClear
      rcases hClear with ⟨hFree, hAbove⟩
      have hSearchable :=
        (usable_of_not_isBlocked hRoot hNames hFree).2
      have hFollow :
          after.locate .follow
              (written root (names ++ [name])) =
            .ok (.found location .directory) :=
        (locate_written_iff hRoot (by simp) hNames).2
          ⟨hSearchable, hDown⟩
      rcases exists_found_keep hRoot hNames hFollow with
        ⟨place, node, hKeep⟩
      rcases hAdds.namesDirectory_or_free hRoot hNames hFree
          (fun holder => ih hFront hAbove) hKeep with
        hOld | hFreePlace
      · rw [namesDirectory_written_iff hRoot (by simp)
          hNames] at hOld
        exact absurd hOld.2 (not_exists.2 hNone)
      · have hNode : after.get? place = some node :=
          isIn_of_locate hKeep
        rw [hAdds.directory place node hFreePlace hNode]
          at hKeep
        -- The entry is the directory that is led to.
        have hSame := locate_follow_of_keep hKeep (by simp)
        rw [hFollow] at hSame
        cases hSame
        exact hFreePlace

/- New directories are in the way of nothing. -/
theorem isClear_written
    (hAdds : after.AddsTo files)
    (hRoot : IsRoot root)
    (hNames : ∀ other ∈ names, IsEntry other)
    (hClear : files.IsClear (written root names)) :
    after.IsClear (written root names) := by
  induction names using List.reverseRec with
  | nil => exact isClear_root hRoot
  | append_singleton names name ih =>
      have hFront := (List.forall_mem_append.1 hNames).1
      rw [isClear_concat_iff hRoot hNames] at hClear ⊢
      rcases hClear with ⟨hFree, hAbove⟩
      refine ⟨?_, ih hFront hAbove⟩
      intro hBlocked
      rcases hBlocked.found_or_unusable hRoot hNames with
        ⟨location, node, hLocate⟩ | hText
      · have hDirectory :=
          hAdds.namesDirectory_of_found hRoot hNames hFree
            (fun holder =>
              hAdds.get?_of_leadsDown hRoot hFront hAbove)
            hLocate
        exact hDirectory.not_isBlocked hBlocked
      · exact hFree (.unusable hText)

/- What is clear stays so among new directories. -/
theorem isClear
    {path : String}
    (hAdds : after.AddsTo files)
    (hPlain : Path.IsPlain path)
    (hClear : files.IsClear path) :
    after.IsClear path := by
  cases hPlain with
  | root => exact isClear_slash
  | named hRoot hSome hNames =>
      exact hAdds.isClear_written hRoot hNames hClear

end AddsTo

end FileSystem

end LineShell

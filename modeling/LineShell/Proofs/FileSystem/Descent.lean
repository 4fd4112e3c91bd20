import LineShell.Proofs.FileSystem.Nodes
import LineShell.Proofs.Path.Upward

/-
  How resolved paths descend. A path of names leads to what
  its last name is in the directory to which the names
  before it lead. Where one of these names is free, all that
  is behind it is missing.

  Key definitions include:
    * `FileSystem.spotAt`
    * `FileSystem.LeadsDown`
    * `FileSystem.IsMissing`

  Correctness is proven by:
    * `FileSystem.Leads.exists_walk_append`
    * `FileSystem.walk_append_of_isMissing`
    * `FileSystem.LeadsDown.locate_keep`
    * `FileSystem.exists_found_keep`
-/

------------------------------------------------------------
-- Going on
------------------------------------------------------------

namespace LineShell

namespace FileSystem

/- A name in a directory, with what it names there. -/
def spotAt
    (files : FileSystem)
    (here : Location)
    (name : Name) : Spot :=
  match files.get? (name :: here) with
  | none => .vacant here name
  | some node => .found (name :: here) node

variable
    {files : FileSystem}
    {last : LastStep}
    {links : Nat}
    {here directory : Location}
    {front steps more : List Step}
    {name : Name}

/- A walk that keeps links ends at its last name. -/
theorem walk_keep_name :
    files.walk .keep links here [.down name] =
      .ok (files.spotAt here name) := by
  unfold spotAt
  cases hNode : files.get? (name :: here) with
  | none => exact Leads.walk_eq (.vacant hNode)
  | some node => exact (leads_of_last hNode).walk_eq

/-
  Behind steps to a directory a walk goes on from there,
  over the links that are left.
-/
theorem Leads.exists_walk_append
    (hLeads :
      Leads files .follow links here front
        (.found directory .directory)) :
    ∃ fewer,
      ∀ last more,
        last ≠ .create →
          more ≠ [] →
            files.walk last links here (front ++ more) =
              files.walk last fewer directory more := by
  generalize hSpot : Spot.found directory .directory = spot
    at hLeads
  induction hLeads with
  | arrive =>
      cases hSpot
      exact ⟨_, fun last more hLast hMore => rfl⟩
  | stay hRest ih =>
      rcases ih hSpot with ⟨fewer, hFewer⟩
      refine ⟨fewer, fun last more hLast hMore => ?_⟩
      rw [List.cons_append, walk_stay]
      exact hFewer last more hLast hMore
  | slash hRest ih =>
      rcases ih hSpot with ⟨fewer, hFewer⟩
      refine ⟨fewer, fun last more hLast hMore => ?_⟩
      rw [List.cons_append, walk_slash]
      exact hFewer last more hLast hMore
  | up hRest ih =>
      rcases ih hSpot with ⟨fewer, hFewer⟩
      refine ⟨fewer, fun last more hLast hMore => ?_⟩
      rw [List.cons_append, walk_up]
      exact hFewer last more hLast hMore
  | vacant hFree => cases hSpot
  | stop hNode hLeaf =>
      cases hSpot
      exact absurd rfl hLeaf.1
  | keep hLink hKeep => cases hKeep
  | enter hNode hWish hRest ih =>
      rcases ih hSpot with ⟨fewer, hFewer⟩
      refine ⟨fewer, fun last more hLast hMore => ?_⟩
      rw [List.cons_append, walk_down,
        if_neg (fun hWish => hLast hWish.1), hNode]
      exact hFewer last more hLast hMore
  | follow hLink hText hWish hFollow hRest ih =>
      rcases ih hSpot with ⟨fewer, hFewer⟩
      refine ⟨fewer, fun last more hLast hMore => ?_⟩
      -- More steps follow: no link is kept before them.
      rw [List.cons_append, walk_down,
        if_neg (fun hWish => hLast hWish.1), hLink]
      dsimp only
      rw [if_neg (fun hKeep =>
          hMore (List.append_eq_nil_iff.1 hKeep.2).2),
        followLink, if_neg hText, ← List.append_assoc]
      exact hFewer last more hLast hMore

/- A name behind steps to a directory is looked up there. -/
theorem Leads.keep_append
    (hLeads :
      Leads files .follow links here front
        (.found directory .directory)) :
    Leads files .keep links here (front ++ [.down name])
      (files.spotAt directory name) := by
  rcases hLeads.exists_walk_append with ⟨fewer, hFewer⟩
  apply leads_of_walk
  rw [hFewer .keep _ (by simp) (by simp)]
  exact walk_keep_name

/- Steps to a directory lead on to a directory in it. -/
theorem Leads.append_directory
    (hLeads :
      Leads files .follow links here front
        (.found directory .directory))
    (hNode :
      files.get? (name :: directory) = some .directory) :
    Leads files .follow links here (front ++ [.down name])
      (.found (name :: directory) .directory) := by
  rcases hLeads.exists_walk_append with ⟨fewer, hFewer⟩
  apply leads_of_walk
  rw [hFewer .follow _ (by simp) (by simp)]
  exact Leads.walk_eq (.enter hNode (by simp) .arrive)

/- What is no link is found with links followed as well. -/
theorem Leads.follow_of_keep
    {spot : Spot}
    (hLeads : Leads files .keep links here steps spot)
    (hNoLink :
      ∀ location target,
        spot ≠ .found location (.link target)) :
    Leads files .follow links here steps spot := by
  induction hLeads with
  | arrive => exact .arrive
  | stay hRest ih => exact .stay (ih hNoLink)
  | slash hRest ih => exact .slash (ih hNoLink)
  | up hRest ih => exact .up (ih hNoLink)
  | vacant hFree => exact .vacant hFree
  | stop hNode hLeaf => exact .stop hNode hLeaf
  | keep hLink hKeep => exact absurd rfl (hNoLink _ _)
  | enter hNode hWish hRest ih =>
      exact .enter hNode (by simp) (ih hNoLink)
  | follow hLink hText hWish hFollow hRest ih =>
      exact .follow hLink hText (by simp) (by simp)
        (ih hNoLink)

end FileSystem

end LineShell

------------------------------------------------------------
-- Missing entries
------------------------------------------------------------

namespace LineShell

namespace FileSystem

/-
  What a walk gives that ends at a free name, or that has to
  go on behind one.
-/
def IsMissing :
    Except Errno Spot → Prop
  | .error cause => cause = .noEntry
  | .ok (.vacant _ _) => True
  | .ok (.found _ _) => False

variable
    {files : FileSystem}
    {links : Nat}
    {here : Location}
    {steps more : List Step}

/- Behind a link nothing is found if its end is missing. -/
theorem followLink_append_of_isMissing
    {target : RawText}
    (hBelow :
      ∀ fewer below steps,
        fewer < links →
          IsMissing (files.walk .keep fewer below steps) →
            files.walk .keep fewer below (steps ++ more) =
              .error .noEntry)
    (hMissing :
      IsMissing
        (files.followLink .keep links here target steps)) :
    files.followLink .keep links here target
        (steps ++ more) =
      .error .noEntry := by
  cases links with
  | zero => cases hMissing
  | succ fewer =>
      unfold followLink at hMissing ⊢
      dsimp only at hMissing ⊢
      split at hMissing
      case isTrue hText => exact if_pos hText
      case isFalse hText =>
        rw [if_neg hText, ← List.append_assoc]
        exact hBelow fewer _ _ (Nat.lt_succ_self fewer)
          hMissing

/- Nothing is found behind what is missing. -/
theorem walk_append_of_isMissing
    (hMissing :
      IsMissing (files.walk .keep links here steps))
    (hMore : more ≠ []) :
    files.walk .keep links here (steps ++ more) =
      .error .noEntry := by
  -- The number of links falls where the steps may grow.
  induction links using Nat.strongRecOn
    generalizing here steps with
  | _ links hLinks =>
    induction steps generalizing here with
    | nil =>
        rw [walk_nil] at hMissing
        exact hMissing.elim
    | cons step rest ih =>
        cases step with
        | stay =>
            rw [walk_stay] at hMissing
            rw [List.cons_append, walk_stay]
            exact ih hMissing
        | slash =>
            rw [walk_slash] at hMissing
            rw [List.cons_append, walk_slash]
            exact ih hMissing
        | up =>
            rw [walk_up] at hMissing
            rw [List.cons_append, walk_up]
            exact ih hMissing
        | unusable =>
            rw [walk_unusable] at hMissing
            cases hMissing
        | down name =>
            have hSome : rest ++ more ≠ [] :=
              fun hNil =>
                hMore (List.append_eq_nil_iff.1 hNil).2
            rw [walk_down, if_neg (by simp)] at hMissing
            rw [List.cons_append, walk_down,
              if_neg (by simp)]
            split at hMissing
            case h_1 hFree => exact if_neg hSome
            case h_2 hNode => exact ih hMissing
            case h_3 target hLink =>
              split at hMissing
              case isTrue => exact hMissing.elim
              case isFalse =>
                rw [if_neg (fun hKeep => hSome hKeep.2)]
                apply followLink_append_of_isMissing
                · intro fewer below steps hFewer hBelow
                  exact hLinks fewer hFewer hBelow
                · exact hMissing
            case h_4 =>
              split at hMissing
              case isTrue => exact hMissing.elim
              case isFalse => cases hMissing

end FileSystem

end LineShell

------------------------------------------------------------
-- Names from the root
------------------------------------------------------------

namespace LineShell

namespace FileSystem

open LineShell.Path (IsEntry IsRoot written)

/- Names from the root lead to a directory. -/
def LeadsDown
    (files : FileSystem)
    (names : List String)
    (directory : Location) : Prop :=
  Leads files .follow maxLinks [] (names.map Step.ofText)
    (.found directory .directory)

variable
    {files : FileSystem}
    {last : LastStep}
    {root name : String}
    {names : List String}
    {directory : Location}
    {spot : Spot}

/- What a path of names leads to. -/
theorem locate_written_iff
    (hRoot : IsRoot root)
    (hSome : names ≠ [])
    (hNames : ∀ other ∈ names, IsEntry other) :
    files.locate last (written root names) = .ok spot ↔
      IsSearchable (written root names) ∧
        Leads files last maxLinks []
          (names.map Step.ofText) spot := by
  rw [locate_eq_ok_iff,
    Step.ofPath_written hRoot hSome hNames]

theorem namesDirectory_written_iff
    (hRoot : IsRoot root)
    (hSome : names ≠ [])
    (hNames : ∀ other ∈ names, IsEntry other) :
    files.NamesDirectory (written root names) ↔
      IsSearchable (written root names) ∧
        ∃ location, files.LeadsDown names location := by
  unfold NamesDirectory LeadsDown
  rw [Step.ofPath_written hRoot hSome hNames]

/- The steps of names with a usable one last. -/
theorem map_ofText_concat
    (hName : IsEntry name)
    (hIs : IsName name) :
    (names ++ [name]).map Step.ofText =
      names.map Step.ofText ++ [.down ⟨name, hIs⟩] := by
  rw [List.map_append, List.map_singleton,
    Step.ofText_of_isName hName hIs]

/-
  Names lead somewhere only if the last one is usable and
  the others lead to a directory.
-/
theorem exists_leadsDown
    (hName : IsEntry name)
    (hLeads :
      Leads files last maxLinks []
        ((names ++ [name]).map Step.ofText) spot) :
    IsName name ∧
      ∃ location, files.LeadsDown names location := by
  by_cases hIs : IsName name
  case pos =>
    rw [map_ofText_concat hName hIs] at hLeads
    exact ⟨hIs, hLeads.exists_directory⟩
  case neg =>
    apply absurd _ hLeads.unusable_not_mem
    rw [List.map_append, List.map_singleton,
      Step.ofText_of_not_isName hName hIs]
    simp

/- A path is looked up with a walk, if it is at all. -/
theorem locate_of_isSearchable
    {path : String}
    (hSearchable : IsSearchable path) :
    files.locate last path =
      (files.walk last maxLinks [] (Step.ofPath path)).mapError
        .refused := by
  rcases hSearchable with ⟨hNul, hText, hShort⟩
  rw [locate, if_neg hNul, if_neg hText,
    if_neg (Nat.not_le.2 hShort)]

/- A link at the end apart, a path leads where it is kept. -/
theorem locate_follow_of_keep
    {path : String}
    (hLocate : files.locate .keep path = .ok spot)
    (hNoLink :
      ∀ location target,
        spot ≠ .found location (.link target)) :
    files.locate .follow path = .ok spot := by
  rcases locate_eq_ok_iff.1 hLocate with
    ⟨hSearchable, hLeads⟩
  exact locate_eq_ok_iff.2
    ⟨hSearchable, hLeads.follow_of_keep hNoLink⟩

namespace LeadsDown

/- No names lead to the root. -/
theorem nil :
    files.LeadsDown [] [] :=
  .arrive

/- One more name leads to a directory of that name. -/
theorem concat
    (hDown : files.LeadsDown names directory)
    (hName : IsEntry name)
    (hIs : IsName name)
    (hNode :
      files.get? (⟨name, hIs⟩ :: directory) =
        some .directory) :
    files.LeadsDown (names ++ [name])
      (⟨name, hIs⟩ :: directory) := by
  unfold LeadsDown at hDown ⊢
  rw [map_ofText_concat hName hIs]
  exact hDown.append_directory hNode

/- One more name is looked up in the directory. -/
theorem locate_keep
    (hDown : files.LeadsDown names directory)
    (hRoot : IsRoot root)
    (hNames : ∀ other ∈ names ++ [name], IsEntry other)
    (hIs : IsName name)
    (hSearchable :
      IsSearchable (written root (names ++ [name]))) :
    files.locate .keep (written root (names ++ [name])) =
      .ok (files.spotAt directory ⟨name, hIs⟩) := by
  have hName : IsEntry name := hNames name (by simp)
  rw [locate_written_iff hRoot (by simp) hNames,
    map_ofText_concat hName hIs]
  exact ⟨hSearchable, hDown.keep_append⟩

/- Names lead to one directory at most. -/
theorem unique
    {other : Location}
    (hDown : files.LeadsDown names directory)
    (hOther : files.LeadsDown names other) :
    other = directory := by
  have hSame := hOther.walk_eq
  rw [hDown.walk_eq] at hSame
  cases hSame
  rfl

end LeadsDown

/- An entry is in the directory of the names before it. -/
theorem exists_holder_of_found
    {location : Location}
    {node : Node}
    (hRoot : IsRoot root)
    (hNames : ∀ other ∈ names ++ [name], IsEntry other)
    (hLocate :
      files.locate .keep (written root (names ++ [name])) =
        .ok (.found location node)) :
    ∃ (hIs : IsName name) (holder : Location),
      location = ⟨name, hIs⟩ :: holder ∧
        files.LeadsDown names holder := by
  have hKeep := hLocate
  rw [locate_written_iff hRoot (by simp) hNames] at hKeep
  rcases hKeep with ⟨hSearchable, hLeads⟩
  rcases exists_leadsDown (hNames name (by simp)) hLeads with
    ⟨hIs, holder, hHolder⟩
  rw [hHolder.locate_keep hRoot hNames hIs hSearchable,
    spotAt] at hLocate
  split at hLocate
  case h_1 => cases hLocate
  case h_2 =>
    cases hLocate
    exact ⟨hIs, holder, rfl, hHolder⟩

/- What a path leads to has an entry at that path. -/
theorem exists_found_keep
    {location : Location}
    {node : Node}
    (hRoot : IsRoot root)
    (hNames : ∀ other ∈ names ++ [name], IsEntry other)
    (hLocate :
      files.locate .follow (written root (names ++ [name])) =
        .ok (.found location node)) :
    ∃ place entry,
      files.locate .keep (written root (names ++ [name])) =
        .ok (.found place entry) := by
  have hFollow := hLocate
  rw [locate_written_iff hRoot (by simp) hNames] at hFollow
  rcases hFollow with ⟨hSearchable, hLeads⟩
  rcases exists_leadsDown (hNames name (by simp)) hLeads with
    ⟨hIs, holder, hHolder⟩
  have hKeep :=
    hHolder.locate_keep hRoot hNames hIs hSearchable
  unfold spotAt at hKeep
  split at hKeep
  case h_1 hFree =>
    rw [locate_follow_of_keep hKeep (by simp)] at hLocate
    cases hLocate
  case h_2 entry hEntry => exact ⟨_, entry, hKeep⟩

end FileSystem

end LineShell

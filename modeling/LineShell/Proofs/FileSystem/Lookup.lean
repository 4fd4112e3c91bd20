import LineShell.FileSystem.Walk

/-
  Where paths lead. A walk is the search for the end of a
  row of steps; the relation `Leads` says what it may find,
  without saying how, and the walk finds exactly that.

  Key definitions include:
    * `FileSystem.Leads`
    * `Spot.IsIn`
    * `Spot.IsWritable`

  Correctness is proven by:
    * `FileSystem.walk_eq_ok_iff`
    * `FileSystem.locate_eq_ok_iff`
    * `FileSystem.isIn_of_locate`
    * `FileSystem.locate_create_iff`
-/

------------------------------------------------------------
-- One step of a walk
------------------------------------------------------------

namespace LineShell

/- The directory from which the text of a link is read. -/
def Location.linkBase
    (here : Location)
    (target : RawText) : Location :=
  if target.bytes.head? = some slashByte then
    []
  else
    here

namespace FileSystem

/- Goes on behind a link, if one more may be followed. -/
def followLink
    (files : FileSystem)
    (last : LastStep)
    (links : Nat)
    (here : Location)
    (target : RawText)
    (rest : List Step) : Except Errno Spot :=
  match links with
  | 0 => .error .tooManyLinks
  | links + 1 =>
    if target.bytes = [] then
      .error .noEntry
    else
      files.walk last links (here.linkBase target)
        (Step.ofPath target ++ rest)

variable
    (files : FileSystem)
    (last : LastStep)
    (links : Nat)
    (here : Location)
    (rest : List Step)

theorem walk_nil :
    files.walk last links here [] =
      .ok (.found here .directory) := by
  cases links <;> rfl

theorem walk_stay :
    files.walk last links here (.stay :: rest) =
      files.walk last links here rest := by
  cases links <;> rfl

theorem walk_slash :
    files.walk last links here (.slash :: rest) =
      files.walk last links here rest := by
  cases links <;> rfl

theorem walk_up :
    files.walk last links here (.up :: rest) =
      files.walk last links here.tail rest := by
  cases links <;> rfl

theorem walk_unusable :
    files.walk last links here (.unusable :: rest) =
      .error .nameTooLong := by
  cases links <;> rfl

theorem walk_down
    (name : Name) :
    files.walk last links here (.down name :: rest) =
      if last = .create ∧ rest = [.slash] then
        .error .isDirectory
      else
        match files.get? (name :: here) with
        | none =>
          if rest = [] then
            .ok (.vacant here name)
          else
            .error .noEntry
        | some .directory =>
          files.walk last links (name :: here) rest
        | some (.link target) =>
          if last = .keep ∧ rest = [] then
            .ok (.found (name :: here) (.link target))
          else
            files.followLink last links here target rest
        | some node =>
          if rest = [] then
            .ok (.found (name :: here) node)
          else
            .error .notDirectory := by
  cases links <;> rfl

end FileSystem

end LineShell

------------------------------------------------------------
-- Where steps lead
------------------------------------------------------------

namespace LineShell

namespace FileSystem

/-
  Steps from a directory lead to a spot, over at most the
  given number of links.
-/
inductive Leads
    (files : FileSystem)
    (last : LastStep) :
    Nat → Location → List Step → Spot → Prop where
  | arrive
      {links : Nat}
      {here : Location} :
      Leads files last links here [] (.found here .directory)
  | stay
      {links : Nat}
      {here : Location}
      {rest : List Step}
      {spot : Spot}
      (hRest : Leads files last links here rest spot) :
      Leads files last links here (.stay :: rest) spot
  | slash
      {links : Nat}
      {here : Location}
      {rest : List Step}
      {spot : Spot}
      (hRest : Leads files last links here rest spot) :
      Leads files last links here (.slash :: rest) spot
  | up
      {links : Nat}
      {here : Location}
      {rest : List Step}
      {spot : Spot}
      (hRest : Leads files last links here.tail rest spot) :
      Leads files last links here (.up :: rest) spot
  | vacant
      {links : Nat}
      {here : Location}
      {name : Name}
      (hFree : files.get? (name :: here) = none) :
      Leads files last links here [.down name]
        (.vacant here name)
  | stop
      {links : Nat}
      {here : Location}
      {name : Name}
      {node : Node}
      (hNode : files.get? (name :: here) = some node)
      (hLeaf :
        node ≠ .directory ∧ ∀ target, node ≠ .link target) :
      Leads files last links here [.down name]
        (.found (name :: here) node)
  | keep
      {links : Nat}
      {here : Location}
      {name : Name}
      {target : RawText}
      (hLink :
        files.get? (name :: here) = some (.link target))
      (hKeep : last = .keep) :
      Leads files last links here [.down name]
        (.found (name :: here) (.link target))
  | enter
      {links : Nat}
      {here : Location}
      {name : Name}
      {rest : List Step}
      {spot : Spot}
      (hNode :
        files.get? (name :: here) = some .directory)
      (hWish : ¬ (last = .create ∧ rest = [.slash]))
      (hRest :
        Leads files last links (name :: here) rest spot) :
      Leads files last links here (.down name :: rest) spot
  | follow
      {links : Nat}
      {here : Location}
      {name : Name}
      {target : RawText}
      {rest : List Step}
      {spot : Spot}
      (hLink :
        files.get? (name :: here) = some (.link target))
      (hText : target.bytes ≠ [])
      (hWish : ¬ (last = .create ∧ rest = [.slash]))
      (hFollow : ¬ (last = .keep ∧ rest = []))
      (hRest :
        Leads files last links (here.linkBase target)
          (Step.ofPath target ++ rest) spot) :
      Leads files last (links + 1) here
        (.down name :: rest) spot

variable
    {files : FileSystem}
    {last : LastStep}
    {links : Nat}
    {here : Location}
    {steps : List Step}
    {spot : Spot}

/- What steps lead to is found by the walk. -/
theorem Leads.walk_eq
    (hLeads : Leads files last links here steps spot) :
    files.walk last links here steps = .ok spot := by
  induction hLeads with
  | arrive => rw [walk_nil]
  | stay hRest ih => rw [walk_stay, ih]
  | slash hRest ih => rw [walk_slash, ih]
  | up hRest ih => rw [walk_up, ih]
  | vacant hFree => simp [walk_down, hFree]
  | @stop links here name node hNode hLeaf =>
      rw [walk_down, hNode]
      cases node with
      | directory => exact absurd rfl hLeaf.1
      | link target => exact absurd rfl (hLeaf.2 target)
      | file content => simp
      | nullDevice => simp
  | keep hLink hKeep => simp [walk_down, hLink, hKeep]
  | enter hNode hWish hRest ih =>
      rw [walk_down, if_neg hWish, hNode]
      exact ih
  | follow hLink hText hWish hFollow hRest ih =>
      rw [walk_down, if_neg hWish, hLink]
      dsimp only
      rw [if_neg hFollow, followLink, if_neg hText]
      exact ih

/- A link leads where its text and the other steps lead. -/
theorem leads_of_followLink
    {name : Name}
    {target : RawText}
    {rest : List Step}
    (hLink :
      files.get? (name :: here) = some (.link target))
    (hWish : ¬ (last = .create ∧ rest = [.slash]))
    (hFollow : ¬ (last = .keep ∧ rest = []))
    (hBelow :
      ∀ fewer below steps spot,
        fewer < links →
          files.walk last fewer below steps = .ok spot →
            Leads files last fewer below steps spot)
    (hWalk :
      files.followLink last links here target rest =
        .ok spot) :
    Leads files last links here (.down name :: rest)
      spot := by
  cases links with
  | zero => cases hWalk
  | succ fewer =>
      rw [followLink] at hWalk
      split at hWalk
      case isTrue => cases hWalk
      case isFalse hText =>
        have hRest :=
          hBelow fewer _ _ _ (Nat.lt_succ_self fewer) hWalk
        exact .follow hLink hText hWish hFollow hRest

/- What is found behind a name is where the name leads. -/
theorem leads_of_walk_down
    {name : Name}
    {rest : List Step}
    (hRest :
      ∀ below,
        files.walk last links below rest = .ok spot →
          Leads files last links below rest spot)
    (hBelow :
      ∀ fewer below steps spot,
        fewer < links →
          files.walk last fewer below steps = .ok spot →
            Leads files last fewer below steps spot)
    (hWalk :
      files.walk last links here (.down name :: rest) =
        .ok spot) :
    Leads files last links here (.down name :: rest)
      spot := by
  rw [walk_down] at hWalk
  split at hWalk
  case isTrue => cases hWalk
  case isFalse hWish =>
    split at hWalk
    case h_1 hFree =>
      split at hWalk
      case isTrue hEnd =>
        subst hEnd
        cases hWalk
        exact .vacant hFree
      case isFalse => cases hWalk
    case h_2 hNode =>
      exact .enter hNode hWish (hRest _ hWalk)
    case h_3 target hLink =>
      split at hWalk
      case isTrue hKeep =>
        rcases hKeep with ⟨hKeep, rfl⟩
        cases hWalk
        exact .keep hLink hKeep
      case isFalse hFollow =>
        exact leads_of_followLink hLink hWish hFollow hBelow
          hWalk
    case h_4 node hNoDirectory hNoLink hNode =>
      split at hWalk
      case isTrue hEnd =>
        subst hEnd
        cases hWalk
        refine .stop hNode ⟨?_, ?_⟩
        · intro hDirectory
          exact hNoDirectory hDirectory
        · intro target hLink
          exact hNoLink target hLink
      case isFalse => cases hWalk

/- What the walk finds is where the steps lead. -/
theorem leads_of_walk
    (hWalk : files.walk last links here steps = .ok spot) :
    Leads files last links here steps spot := by
  -- The number of links falls where the steps may grow.
  induction links using Nat.strongRecOn
    generalizing here steps spot with
  | _ links hLinks =>
    induction steps generalizing here with
    | nil =>
        rw [walk_nil] at hWalk
        cases hWalk
        exact .arrive
    | cons step rest ih =>
        cases step with
        | stay =>
            rw [walk_stay] at hWalk
            exact .stay (ih hWalk)
        | slash =>
            rw [walk_slash] at hWalk
            exact .slash (ih hWalk)
        | up =>
            rw [walk_up] at hWalk
            exact .up (ih hWalk)
        | unusable =>
            rw [walk_unusable] at hWalk
            cases hWalk
        | down name =>
            apply leads_of_walk_down
            · intro below hBelow
              exact ih hBelow
            · intro fewer below steps spot hFewer hBelow
              exact hLinks fewer hFewer hBelow
            · exact hWalk

/- The walk finds exactly where the steps lead. -/
theorem walk_eq_ok_iff :
    files.walk last links here steps = .ok spot ↔
      Leads files last links here steps spot := by
  constructor
  · exact leads_of_walk
  · exact Leads.walk_eq

end FileSystem

end LineShell

------------------------------------------------------------
-- What steps lead to
------------------------------------------------------------

namespace LineShell

/- A file system has a spot as it is described. -/
def Spot.IsIn
    (files : FileSystem) :
    Spot → Prop
  | .found location node => files.get? location = some node
  | .vacant directory name =>
    files.get? directory = some .directory ∧
      files.get? (name :: directory) = none

/- A file, the null device or a free name. -/
def Spot.IsWritable :
    Spot → Prop
  | .found _ (.file _) => True
  | .found _ .nullDevice => True
  | .vacant _ _ => True
  | _ => False

namespace FileSystem

/- Whatever holds an entry is a directory. -/
theorem get?_tail
    {files : FileSystem}
    {location : Location}
    {node : Node}
    (hNode : files.get? location = some node) :
    files.get? location.tail = some .directory := by
  cases location with
  | nil => exact get?_nil files
  | cons name holder =>
      have hMem : (name :: holder, node) ∈ files.entries :=
        (get?_eq_some_iff (by simp)).1 hNode
      rcases files.sound.rooted _ _ hMem with
        ⟨other, directory, hEq, hHolder⟩
      cases hEq
      exact get?_eq_directory_iff.2 hHolder

namespace Leads

variable
    {files : FileSystem}
    {last : LastStep}
    {links : Nat}
    {here : Location}
    {steps : List Step}
    {spot : Spot}

/- From a directory, steps lead to a spot that is there. -/
theorem isIn
    (hLeads : Leads files last links here steps spot)
    (hHere : files.get? here = some .directory) :
    spot.IsIn files := by
  induction hLeads with
  | arrive => exact hHere
  | stay hRest ih => exact ih hHere
  | slash hRest ih => exact ih hHere
  | up hRest ih => exact ih (get?_tail hHere)
  | vacant hFree => exact ⟨hHere, hFree⟩
  | stop hNode hLeaf => exact hNode
  | keep hLink hKeep => exact hLink
  | enter hNode hWish hRest ih => exact ih hNode
  | follow hLink hText hWish hFollow hRest ih =>
      apply ih
      unfold Location.linkBase
      split
      · exact get?_nil files
      · exact hHere

/- Where a name is too long the steps lead nowhere. -/
theorem unusable_not_mem
    (hLeads : Leads files last links here steps spot) :
    .unusable ∉ steps := by
  induction hLeads with
  | arrive => simp
  | stay hRest ih => simpa using ih
  | slash hRest ih => simpa using ih
  | up hRest ih => simpa using ih
  | vacant hFree => simp
  | stop hNode hLeaf => simp
  | keep hLink hKeep => simp
  | enter hNode hWish hRest ih => simpa using ih
  | follow hLink hText hWish hFollow hRest ih =>
      intro hMem
      apply ih
      apply List.mem_append_right
      simpa using hMem

/-
  No steps, or steps with a slash at the end, lead to a
  directory.
-/
theorem found_of_slash
    (hLeads : Leads files .follow links here steps spot)
    (hSlash : steps = [] ∨ steps.getLast? = some .slash) :
    ∃ location, spot = .found location .directory := by
  have hTail :
      ∀ {step rest},
        step :: rest = [] ∨
            (step :: rest).getLast? = some .slash →
          rest = [] ∨ rest.getLast? = some Step.slash := by
    intro step rest hSlash
    cases rest with
    | nil => exact Or.inl rfl
    | cons next rest => simpa using hSlash
  induction hLeads with
  | arrive => exact ⟨_, rfl⟩
  | stay hRest ih => exact ih (hTail hSlash)
  | slash hRest ih => exact ih (hTail hSlash)
  | up hRest ih => exact ih (hTail hSlash)
  | vacant hFree => simp at hSlash
  | stop hNode hLeaf => simp at hSlash
  | keep hLink hKeep => cases hKeep
  | enter hNode hWish hRest ih => exact ih (hTail hSlash)
  | @follow links here name target rest spot hLink hText
      hWish hFollow hRest ih =>
      -- The slash is not the name: it is behind the link.
      have hRestSlash : rest.getLast? = some .slash := by
        cases rest with
        | nil => simp at hSlash
        | cons next rest => simpa using hSlash
      apply ih
      apply Or.inr
      rw [List.getLast?_append, hRestSlash]
      rfl

/- Unless links are kept, steps do not lead to one. -/
theorem not_link
    (hLeads : Leads files last links here steps spot)
    (hLast : last ≠ .keep)
    (location : Location)
    (target : RawText) :
    spot ≠ .found location (.link target) := by
  induction hLeads with
  | arrive => simp
  | stay hRest ih => exact ih
  | slash hRest ih => exact ih
  | up hRest ih => exact ih
  | vacant hFree => simp
  | stop hNode hLeaf =>
      intro hEq
      cases hEq
      exact hLeaf.2 target rfl
  | keep hLink hKeep => exact absurd hKeep hLast
  | enter hNode hWish hRest ih => exact ih
  | follow hLink hText hWish hFollow hRest ih => exact ih

/- What is found with a wish to create is found without it. -/
theorem follow_of_create
    (hLeads : Leads files .create links here steps spot) :
    Leads files .follow links here steps spot := by
  induction hLeads with
  | arrive => exact .arrive
  | stay hRest ih => exact .stay ih
  | slash hRest ih => exact .slash ih
  | up hRest ih => exact .up ih
  | vacant hFree => exact .vacant hFree
  | stop hNode hLeaf => exact .stop hNode hLeaf
  | keep hLink hKeep => cases hKeep
  | enter hNode hWish hRest ih =>
      exact .enter hNode (by simp) ih
  | follow hLink hText hWish hFollow hRest ih =>
      exact .follow hLink hText (by simp) (by simp) ih

/-
  What can be written to is also found with the wish to
  create it: that wish is only in vain before a slash.
-/
theorem create_of_follow
    (hLeads : Leads files .follow links here steps spot)
    (hWritable : spot.IsWritable) :
    Leads files .create links here steps spot := by
  have hNoSlash :
      ∀ {links here name spot},
        Leads files .follow links here [.down name, .slash]
            spot →
          ¬ spot.IsWritable := by
    intro links here name spot hLeads hWritable
    rcases hLeads.found_of_slash (Or.inr rfl) with
      ⟨location, rfl⟩
    exact hWritable
  induction hLeads with
  | arrive => exact .arrive
  | stay hRest ih => exact .stay (ih hWritable)
  | slash hRest ih => exact .slash (ih hWritable)
  | up hRest ih => exact .up (ih hWritable)
  | vacant hFree => exact .vacant hFree
  | stop hNode hLeaf => exact .stop hNode hLeaf
  | keep hLink hKeep => cases hKeep
  | enter hNode hWish hRest ih =>
      refine .enter hNode ?_ (ih hWritable)
      rintro ⟨hCreate, rfl⟩
      exact hNoSlash (.enter hNode hWish hRest) hWritable
  | follow hLink hText hWish hFollow hRest ih =>
      refine .follow hLink hText ?_ (by simp)
        (ih hWritable)
      rintro ⟨hCreate, rfl⟩
      exact hNoSlash
        (.follow hLink hText hWish hFollow hRest) hWritable

/- The name at the end of steps is in a directory. -/
theorem exists_directory
    {front : List Step}
    {name : Name}
    (hLeads :
      Leads files last links here (front ++ [.down name])
        spot) :
    ∃ directory,
      Leads files .follow links here front
        (.found directory .directory) := by
  generalize hSteps : front ++ [.down name] = steps
    at hLeads
  -- A step is the name at the end, or it is one before it.
  induction hLeads generalizing front with
  | arrive => simp at hSteps
  | stay hRest ih =>
      rcases List.append_eq_cons_iff.1 hSteps with
        ⟨rfl, hLast⟩ | ⟨front, rfl, hTail⟩
      · cases hLast
      · rcases ih hTail.symm with ⟨directory, hFront⟩
        exact ⟨directory, .stay hFront⟩
  | slash hRest ih =>
      rcases List.append_eq_cons_iff.1 hSteps with
        ⟨rfl, hLast⟩ | ⟨front, rfl, hTail⟩
      · cases hLast
      · rcases ih hTail.symm with ⟨directory, hFront⟩
        exact ⟨directory, .slash hFront⟩
  | up hRest ih =>
      rcases List.append_eq_cons_iff.1 hSteps with
        ⟨rfl, hLast⟩ | ⟨front, rfl, hTail⟩
      · cases hLast
      · rcases ih hTail.symm with ⟨directory, hFront⟩
        exact ⟨directory, .up hFront⟩
  | vacant hFree =>
      rcases List.append_eq_cons_iff.1 hSteps with
        ⟨rfl, hLast⟩ | ⟨front, rfl, hTail⟩
      · exact ⟨_, .arrive⟩
      · simp at hTail
  | stop hNode hLeaf =>
      rcases List.append_eq_cons_iff.1 hSteps with
        ⟨rfl, hLast⟩ | ⟨front, rfl, hTail⟩
      · exact ⟨_, .arrive⟩
      · simp at hTail
  | keep hLink hKeep =>
      rcases List.append_eq_cons_iff.1 hSteps with
        ⟨rfl, hLast⟩ | ⟨front, rfl, hTail⟩
      · exact ⟨_, .arrive⟩
      · simp at hTail
  | enter hNode hWish hRest ih =>
      rcases List.append_eq_cons_iff.1 hSteps with
        ⟨rfl, hLast⟩ | ⟨front, rfl, hTail⟩
      · exact ⟨_, .arrive⟩
      · rcases ih hTail.symm with ⟨directory, hFront⟩
        exact ⟨directory, .enter hNode (by simp) hFront⟩
  | follow hLink hText hWish hFollow hRest ih =>
      rcases List.append_eq_cons_iff.1 hSteps with
        ⟨rfl, hLast⟩ | ⟨front, rfl, rfl⟩
      · exact ⟨_, .arrive⟩
      · rcases ih (List.append_assoc _ _ _) with
          ⟨directory, hFront⟩
        exact ⟨directory, .follow hLink hText (by simp)
          (by simp) hFront⟩

end Leads

end FileSystem

end LineShell

------------------------------------------------------------
-- What paths name
------------------------------------------------------------

namespace LineShell

/- A cause in other words leaves a success as it is. -/
theorem mapError_eq_ok_iff
    {α ε φ : Type}
    {f : ε → φ}
    {result : Except ε α}
    {value : α} :
    result.mapError f = .ok value ↔ result = .ok value := by
  cases result with
  | ok found =>
      change (.ok found : Except φ α) = .ok value ↔ _
      rw [Except.ok.injEq, Except.ok.injEq]
  | error cause =>
      change (.error (f cause) : Except φ α) = .ok value ↔ _
      simp

/- A path that is looked up at all. -/
def IsSearchable
    (path : String) : Prop :=
  '\x00' ∉ path.toList ∧ path ≠ "" ∧
    path.utf8ByteSize < pathBytesLimit

namespace FileSystem

variable
    {files : FileSystem}
    {last : LastStep}
    {path : String}
    {spot : Spot}

/- A path names the spot to which its steps lead. -/
theorem locate_eq_ok_iff :
    files.locate last path = .ok spot ↔
      IsSearchable path ∧
        Leads files last maxLinks [] (Step.ofPath path)
          spot := by
  unfold locate IsSearchable
  split
  case isTrue hNul => simp [hNul]
  case isFalse hNul =>
    split
    case isTrue hEmpty => simp [hEmpty]
    case isFalse hEmpty =>
      split
      case isTrue hLong =>
        simp [Nat.not_lt.2 hLong]
      case isFalse hShort =>
        have hSearchable :
            '\x00' ∉ path.toList ∧ path ≠ "" ∧
              path.utf8ByteSize < pathBytesLimit :=
          ⟨hNul, hEmpty, Nat.not_le.1 hShort⟩
        rw [and_iff_right hSearchable, ← walk_eq_ok_iff,
          mapError_eq_ok_iff]

/- What a path names is there. -/
theorem isIn_of_locate
    (hLocate : files.locate last path = .ok spot) :
    spot.IsIn files := by
  have hLeads := (locate_eq_ok_iff.1 hLocate).2
  exact hLeads.isIn (get?_nil files)

/-
  What can be written to is found alike with and without the
  wish to create it.
-/
theorem locate_create_iff
    (hWritable : spot.IsWritable) :
    files.locate .create path = .ok spot ↔
      files.locate .follow path = .ok spot := by
  rw [locate_eq_ok_iff, locate_eq_ok_iff]
  constructor
  · rintro ⟨hSearchable, hLeads⟩
    exact ⟨hSearchable, hLeads.follow_of_create⟩
  · rintro ⟨hSearchable, hLeads⟩
    exact ⟨hSearchable, hLeads.create_of_follow hWritable⟩

/-
  A path with links followed names something to write to, or
  a directory, or nothing at all.
-/
theorem locate_follow_cases
    (files : FileSystem)
    (path : String) :
    (∃ spot,
      files.locate .follow path = .ok spot ∧
        spot.IsWritable) ∨
      (∃ location,
        files.locate .follow path =
          .ok (.found location .directory)) ∨
      ∃ cause, files.locate .follow path = .error cause := by
  cases hLocate : files.locate .follow path with
  | error cause => exact Or.inr (Or.inr ⟨cause, rfl⟩)
  | ok spot =>
      cases spot with
      | vacant directory name =>
          exact Or.inl ⟨_, rfl, trivial⟩
      | found location node =>
          cases node with
          | file content => exact Or.inl ⟨_, rfl, trivial⟩
          | nullDevice => exact Or.inl ⟨_, rfl, trivial⟩
          | directory =>
              exact Or.inr (Or.inl ⟨location, rfl⟩)
          | link target =>
              have hLeads := (locate_eq_ok_iff.1 hLocate).2
              exact absurd rfl
                (hLeads.not_link (by simp) location target)

end FileSystem

end LineShell

import LineShell.FileSystem.Basic

/-
  This module defines file systems as sound tables of
  entries, and the changes that can be made at one location.
  A change that the table does not allow is refused, so that
  every file system stays sound.

  Key definitions include:
    * `FileSystem`
    * `FileSystem.get?`
    * `FileSystem.children`
    * `FileSystem.put`
    * `FileSystem.remove`
    * `FileSystem.relocate`

  The lemma `get?_eq_some_iff` ties what a file system shows
  at a location to the rows of its table, and `get?_put`,
  `get?_remove` and `get?_relocate` say what it shows after
  a change.
-/

namespace LineShell

/- A table of entries that is sound. -/
structure FileSystem where
  entries : Entries
  sound : entries.Sound

namespace FileSystem

------------------------------------------------------------
-- Looking
------------------------------------------------------------

/- The file system with nothing but its root. -/
def empty : FileSystem where
  entries := []
  sound :=
    { nodup := List.nodup_nil
      rooted := by
        intro location node hMem
        cases hMem }

/- What is at a location. The root is a directory. -/
def get?
    (files : FileSystem)
    (location : Location) : Option Node :=
  if location = [] then
    some .directory
  else
    files.entries.lookup location

/- The entries of a directory, in no particular order. -/
def children
    (files : FileSystem)
    (directory : Location) : List (Name × Node) :=
  files.entries.filterMap fun
    | (name :: holder, node) =>
      if holder = directory then some (name, node) else none
    | ([], _) => none

@[simp]
theorem get?_nil
    (files : FileSystem) :
    files.get? [] = some .directory :=
  rfl

theorem mem_of_lookup
    {entries : Entries}
    {location : Location}
    {node : Node}
    (h : entries.lookup location = some node) :
    (location, node) ∈ entries := by
  induction entries with
  | nil => cases h
  | cons entry rest ih =>
    rcases entry with ⟨key, value⟩
    by_cases hKey : location = key
    · subst hKey
      simp at h
      simp [h]
    · have hBeq : (location == key) = false := by
        simpa using hKey
      rw [List.lookup_cons, hBeq] at h
      exact List.mem_cons_of_mem _ (ih h)

theorem lookup_isSome_of_mem
    {entries : Entries}
    {location : Location}
    {node : Node}
    (h : (location, node) ∈ entries) :
    ∃ other, entries.lookup location = some other := by
  induction entries with
  | nil => cases h
  | cons entry rest ih =>
    rcases entry with ⟨key, value⟩
    by_cases hKey : location = key
    · subst hKey
      exact ⟨value, by simp⟩
    · have hBeq : (location == key) = false := by
        simpa using hKey
      rw [List.lookup_cons, hBeq]
      rcases List.mem_cons.1 h with hEq | hRest
      · exact absurd (congrArg Prod.fst hEq) hKey
      · exact ih hRest

/- Below the root, what is shown is what the table holds. -/
theorem get?_eq_some_iff
    {files : FileSystem}
    {location : Location}
    {node : Node}
    (hLocation : location ≠ []) :
    files.get? location = some node ↔
      (location, node) ∈ files.entries := by
  simp only [get?, hLocation, if_false]
  constructor
  · exact mem_of_lookup
  · intro hMem
    rcases lookup_isSome_of_mem hMem with ⟨other, hOther⟩
    rw [hOther, files.sound.node_unique hMem
      (mem_of_lookup hOther)]

/- A location shows a directory exactly if the table says so. -/
theorem get?_eq_directory_iff
    {files : FileSystem}
    {location : Location} :
    files.get? location = some .directory ↔
      files.entries.HasDirectory location := by
  by_cases h : location = []
  · subst h
    simp [Entries.HasDirectory]
  · rw [get?_eq_some_iff h]
    simp [Entries.HasDirectory, h]

theorem mem_children_iff
    {files : FileSystem}
    {directory : Location}
    {name : Name}
    {node : Node} :
    (name, node) ∈ files.children directory ↔
      (name :: directory, node) ∈ files.entries := by
  simp only [children, List.mem_filterMap]
  constructor
  · rintro ⟨⟨location, other⟩, hMem, hSome⟩
    rcases location with _ | ⟨first, holder⟩
    · simp at hSome
    · by_cases hHolder : holder = directory
      · simp [hHolder] at hSome
        rcases hSome with ⟨rfl, rfl⟩
        exact hHolder ▸ hMem
      · simp [hHolder] at hSome
  · intro hMem
    exact ⟨_, hMem, by simp⟩

------------------------------------------------------------
-- Changing
------------------------------------------------------------

/-
  Puts a node at a location. The location must lie in a
  directory, and a directory is not replaced by anything
  else.
-/
def put
    (files : FileSystem)
    (location : Location)
    (node : Node) : Except Errno FileSystem :=
  match location with
  | [] => .error .isDirectory
  | name :: directory =>
    if hDirectory :
        files.entries.HasDirectory directory then
      if hKept :
          node = .directory ∨
            (name :: directory, Node.directory) ∉
              files.entries then
        .ok
          ⟨files.entries.set (name :: directory) node,
            files.sound.set hDirectory hKept⟩
      else
        .error .isDirectory
    else
      .error .notDirectory

/-
  Takes away what is at a location, in which nothing may
  lie.
-/
def remove
    (files : FileSystem)
    (location : Location) : Except Errno FileSystem :=
  if hEmpty : files.children location = [] then
    .ok
      ⟨files.entries.erase location,
        files.sound.erase (by
          intro name node hMem
          have hChild := mem_children_iff.2 hMem
          rw [hEmpty] at hChild
          cases hChild)⟩
  else
    .error .notEmpty

/-
  Moves what is at one location, with all that lies in it,
  to a location where nothing is.
-/
def relocate
    (files : FileSystem)
    (source target : Location) : Except Errno FileSystem :=
  match target with
  | [] => .error .busy
  | name :: directory =>
    if hSource : source = [] then
      .error .busy
    else if hApart :
        Location.IsWithin (name :: directory) source then
      .error .invalid
    else if hTaken :
        name :: directory ∈
          files.entries.map Prod.fst then
      .error .exists
    else if hDirectory :
        files.entries.HasDirectory directory then
      .ok
        ⟨files.entries.move source (name :: directory),
          files.sound.move hSource hDirectory hApart
            (by
              intro node hMem
              exact hTaken
                (List.mem_map_of_mem (f := Prod.fst)
                  hMem))⟩
    else
      .error .notDirectory

------------------------------------------------------------
-- What a change shows
------------------------------------------------------------

/- A change shows the new node and nothing else that is new. -/
theorem get?_put
    {files changed : FileSystem}
    {location : Location}
    {node : Node}
    (h : files.put location node = .ok changed)
    (other : Location) :
    changed.get? other =
      if other = location then
        some node
      else
        files.get? other := by
  unfold put at h
  split at h
  · cases h
  split at h
  · split at h
    · cases h
      by_cases hRoot : other = []
      · subst hRoot
        simp
      · refine Option.ext fun value => ?_
        rw [get?_eq_some_iff hRoot, Entries.mem_set_iff]
        split
        case isTrue hEq => simp [hEq, eq_comm]
        case isFalse hNe =>
          simp [hNe, get?_eq_some_iff hRoot]
    · cases h
  · cases h

/- After a removal there is nothing at the location. -/
theorem get?_remove
    {files changed : FileSystem}
    {location : Location}
    (hLocation : location ≠ [])
    (h : files.remove location = .ok changed)
    (other : Location) :
    changed.get? other =
      if other = location then
        none
      else
        files.get? other := by
  unfold remove at h
  split at h
  · cases h
    by_cases hRoot : other = []
    · subst hRoot
      simp [hLocation.symm]
    · refine Option.ext fun value => ?_
      rw [get?_eq_some_iff hRoot, Entries.mem_erase_iff]
      split
      case isTrue hEq => simp [hEq]
      case isFalse hNe =>
        simp [hNe, get?_eq_some_iff hRoot]
  · cases h

/-
  After a move the target shows what the source has shown,
  with all that lies in it, and the source shows nothing.
-/
theorem get?_relocate
    {files changed : FileSystem}
    {source target : Location}
    (h : files.relocate source target = .ok changed)
    (other : Location) :
    changed.get? other =
      if other.IsWithin target then
        files.get? (other.rebase target source)
      else if other.IsWithin source then
        none
      else
        files.get? other := by
  unfold relocate at h
  split at h
  · cases h
  rename_i name directory
  split at h
  · cases h
  rename_i hSource
  split at h
  · cases h
  split at h
  · cases h
  rename_i hFree
  split at h
  case isFalse => cases h
  cases h
  have hNew : ∀ {key node}, (key, node) ∈ files.entries →
      ¬ Location.IsWithin key (name :: directory) := by
    intro key node hMem hWithin
    rcases files.sound.mem_of_suffix hMem hWithin (by simp)
      with ⟨old, hOld⟩
    exact hFree (List.mem_map_of_mem (f := Prod.fst) hOld)
  by_cases hRoot : other = []
  · subst hRoot
    simp [Location.IsWithin, hSource]
  refine Option.ext fun value => ?_
  rw [get?_eq_some_iff hRoot, Entries.mem_move_iff]
  split
  case isTrue hTarget =>
    have hBack := @Location.isWithin_rebase _ source _ hTarget
    have hBackRoot :
        other.rebase (name :: directory) source ≠ [] := by
      intro hNil
      rw [hNil] at hBack
      exact hSource (List.suffix_nil.1 hBack)
    rw [get?_eq_some_iff hBackRoot]
    constructor
    · rintro ⟨before, hMem, rfl⟩
      by_cases hIn : before.IsWithin source
      · rwa [Location.rebase_rebase hIn]
      · rw [Location.rebase_of_not_within hIn] at hTarget
        exact absurd hTarget (hNew hMem)
    · intro hMem
      exact ⟨_, hMem, Location.rebase_rebase hTarget⟩
  case isFalse hTarget =>
    split
    case isTrue hIn =>
      simp only [reduceCtorEq, iff_false]
      rintro ⟨before, hMem, rfl⟩
      by_cases hBefore : before.IsWithin source
      · exact hTarget (Location.isWithin_rebase hBefore)
      · rw [Location.rebase_of_not_within hBefore] at hIn
        exact hBefore hIn
    case isFalse hOut =>
      rw [get?_eq_some_iff hRoot]
      constructor
      · rintro ⟨before, hMem, rfl⟩
        by_cases hBefore : before.IsWithin source
        · exact absurd (Location.isWithin_rebase hBefore)
            hTarget
        · rwa [Location.rebase_of_not_within hBefore]
      · intro hMem
        exact ⟨other, hMem,
          Location.rebase_of_not_within hOut⟩

end FileSystem

end LineShell

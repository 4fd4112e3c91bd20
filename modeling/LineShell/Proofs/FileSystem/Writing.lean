import LineShell.Proofs.FileSystem.Names
import LineShell.Proofs.FileSystem.Nodes

/-
  What it means to write to a path. A file gets its new
  content, a free name becomes a file, and nothing else
  changes; where the path cannot be opened nothing changes
  at all.

  Key definitions include:
    * `FileSystem.IsWith`
    * `FileSystem.CannotOpen`
    * `FileSystem.Refusals`
    * `FileSystem.contentAt?`

  Correctness is proven by:
    * `FileSystem.writeFile_of_file`
    * `FileSystem.writeFile_of_vacant`
    * `FileSystem.writeFile_of_device`
    * `FileSystem.writeFile_of_cannotOpen`
    * `FileSystem.refusals`
    * `FileSystem.writeFile_of_content`
    * `FileSystem.readFile_of_isWith`
-/

------------------------------------------------------------
-- Changes at one location
------------------------------------------------------------

namespace LineShell

namespace FileSystem

/- A file system is another one with a node at a location. -/
structure IsWith
    (after before : FileSystem)
    (location : Location)
    (node : Node) : Prop where
  changed : after.get? location = some node
  kept :
    ∀ other, other ≠ location →
      after.get? other = before.get? other

variable
    {files : FileSystem}

/-
  In a directory, any node but a directory gives way to a
  new one.
-/
theorem exists_put
    {name : Name}
    {directory : Location}
    (hDirectory :
      files.get? directory = some .directory)
    (hOld :
      files.get? (name :: directory) ≠ some .directory)
    (node : Node) :
    ∃ changed,
      files.put (name :: directory) node = .ok changed ∧
        changed.IsWith files (name :: directory) node := by
  have hHolder : files.entries.HasDirectory directory :=
    get?_eq_directory_iff.1 hDirectory
  have hFree :
      (name :: directory, Node.directory) ∉
        files.entries := by
    intro hMem
    exact hOld ((get?_eq_some_iff (by simp)).2 hMem)
  have hPut :
      ∃ changed,
        files.put (name :: directory) node =
          .ok changed := by
    unfold put
    dsimp only
    rw [dif_pos hHolder, dif_pos (Or.inr hFree)]
    exact ⟨_, rfl⟩
  rcases hPut with ⟨changed, hPut⟩
  refine ⟨changed, hPut, ?_, ?_⟩
  · rw [get?_put hPut, if_pos rfl]
  · intro other hOther
    rw [get?_put hPut, if_neg hOther]

/- A file gives way to a new node. -/
theorem exists_put_of_file
    {location : Location}
    {old : ByteArray}
    (hFile : files.get? location = some (.file old))
    (node : Node) :
    ∃ changed,
      files.put location node = .ok changed ∧
        changed.IsWith files location node := by
  cases location with
  | nil => simp at hFile
  | cons name directory =>
      apply exists_put
      · exact get?_tail hFile
      · rw [hFile]
        simp

end FileSystem

end LineShell

------------------------------------------------------------
-- Writing to what a path names
------------------------------------------------------------

namespace LineShell

namespace FileSystem

/- A path names a directory, or it cannot be followed. -/
def CannotOpen
    (files : FileSystem)
    (path : String) : Prop :=
  (∃ location,
    files.locate .follow path =
      .ok (.found location .directory)) ∨
    ∃ cause, files.locate .follow path = .error cause

variable
    {files : FileSystem}
    {path : String}
    (mode : WriteMode)
    (bytes : ByteArray)

theorem writeFile_of_file
    {location : Location}
    {old : ByteArray}
    (hLocate :
      files.locate .follow path =
        .ok (.found location (.file old))) :
    ∃ changed,
      files.writeFile mode path bytes = .ok changed ∧
        changed.IsWith files location
          (.file (writtenContent mode old bytes)) := by
  have hCreate :
      files.locate .create path =
        .ok (.found location (.file old)) := by
    rw [locate_create_iff]
    · exact hLocate
    · trivial
  rcases exists_put_of_file (isIn_of_locate hLocate)
      (.file (writtenContent mode old bytes)) with
    ⟨changed, hPut, hWith⟩
  refine ⟨changed, ?_, hWith⟩
  unfold writeFile
  simp only [hCreate, bind, Except.bind]
  rw [mapError_eq_ok_iff]
  exact hPut

theorem writeFile_of_vacant
    {directory : Location}
    {name : Name}
    (hLocate :
      files.locate .follow path =
        .ok (.vacant directory name)) :
    ∃ changed,
      files.writeFile mode path bytes = .ok changed ∧
        changed.IsWith files (name :: directory)
          (.file bytes) := by
  have hCreate :
      files.locate .create path =
        .ok (.vacant directory name) := by
    rw [locate_create_iff]
    · exact hLocate
    · trivial
  rcases isIn_of_locate hLocate with ⟨hDirectory, hFree⟩
  have hOld :
      files.get? (name :: directory) ≠ some .directory := by
    rw [hFree]
    simp
  rcases exists_put hDirectory hOld (.file bytes) with
    ⟨changed, hPut, hWith⟩
  refine ⟨changed, ?_, hWith⟩
  unfold writeFile
  simp only [hCreate, bind, Except.bind]
  rw [mapError_eq_ok_iff]
  exact hPut

theorem writeFile_of_device
    {location : Location}
    (hLocate :
      files.locate .follow path =
        .ok (.found location .nullDevice)) :
    files.writeFile mode path bytes = .ok files := by
  have hCreate :
      files.locate .create path =
        .ok (.found location .nullDevice) := by
    rw [locate_create_iff]
    · exact hLocate
    · trivial
  unfold writeFile
  simp [hCreate, bind, Except.bind]

theorem writeFile_of_cannotOpen
    (hOpen : files.CannotOpen path) :
    ∃ cause,
      files.writeFile mode path bytes = .error cause := by
  have hNot :
      ∀ spot,
        files.locate .create path = .ok spot →
          ¬ spot.IsWritable := by
    intro spot hCreate hWritable
    have hFollow := (locate_create_iff hWritable).1 hCreate
    rcases hOpen with ⟨location, hFound⟩ | ⟨cause, hError⟩
    · rw [hFollow, Except.ok.injEq] at hFound
      rw [hFound] at hWritable
      exact hWritable
    · rw [hFollow] at hError
      cases hError
  unfold writeFile
  cases hCreate : files.locate .create path with
  | error cause => exact ⟨cause, rfl⟩
  | ok spot =>
      cases spot with
      | vacant directory name =>
          exact absurd trivial (hNot _ hCreate)
      | found location node =>
          cases node with
          | file old => exact absurd trivial (hNot _ hCreate)
          | nullDevice =>
              exact absurd trivial (hNot _ hCreate)
          | directory => exact ⟨_, rfl⟩
          | link target => exact ⟨_, rfl⟩

end FileSystem

end LineShell

------------------------------------------------------------
-- Paths that cannot be opened
------------------------------------------------------------

namespace LineShell

namespace Step

/- A component that is too long is no step. -/
theorem unusable_mem_ofPath
    {path piece : String}
    (hPiece : piece ∈ Path.components path)
    (hLong : maxNameBytes < piece.utf8ByteSize) :
    .unusable ∈ ofPath path := by
  have hStep : ofText piece = .unusable := by
    have hName : ¬ IsName piece := by
      intro hName
      have hShort := (isName_ofText_iff.1 hName).2.2.2.1
      exact absurd hShort (Nat.not_le.2 hLong)
    have hDot : piece ≠ "." := by
      rintro rfl
      exact absurd hLong (by decide)
    have hDots : piece ≠ ".." := by
      rintro rfl
      exact absurd hLong (by decide)
    simp [ofText_eq, hName, hDot, hDots]
  unfold Path.components at hPiece
  rcases List.mem_filter.1 hPiece with ⟨hMem, hProper⟩
  rcases List.mem_map.1 hMem with ⟨chars, hChars, rfl⟩
  have hSome : chars ≠ [] := by
    rintro rfl
    simp at hProper
  have hSteps :
      .unusable ∈
        ((path.toList.splitOn '/').filter (· ≠ [])).map
          fun chars => ofText (String.ofList chars) := by
    apply List.mem_map.2
    refine ⟨chars, ?_, hStep⟩
    simp [hChars, hSome]
  rw [ofPath_ofText]
  dsimp only
  split
  · exact List.mem_append_left _ hSteps
  · exact hSteps

end Step

namespace FileSystem

/-
  Why a path cannot be opened: it is a directory, it holds a
  NUL, is empty or too long, one of its names is too long,
  its last name is not in a directory, or it leads nowhere
  however many links are followed.
-/
structure Refusals
    (files : FileSystem)
    (path : String) : Prop where
  directory :
    files.isDirectoryAt path = true → files.CannotOpen path
  unsearchable :
    ¬ IsSearchable path → files.CannotOpen path
  long_name :
    ∀ name ∈ Path.components path,
      maxNameBytes < name.utf8ByteSize →
        files.CannotOpen path
  no_parent :
    ∀ front name,
      Step.ofPath path = front ++ [.down name] →
        (∀ directory,
          files.walk .follow maxLinks [] front ≠
            .ok (.found directory .directory)) →
          files.CannotOpen path
  nowhere :
    (∀ links spot,
      files.walk .follow links [] (Step.ofPath path) ≠
        .ok spot) →
      files.CannotOpen path

variable
    {files : FileSystem}
    {path : String}

theorem cannotOpen_of_isDirectoryAt
    (hDirectory : files.isDirectoryAt path = true) :
    files.CannotOpen path := by
  unfold isDirectoryAt nodeAt at hDirectory
  cases hLocate : files.locate .follow path with
  | error cause => exact Or.inr ⟨cause, hLocate⟩
  | ok spot =>
      rw [hLocate] at hDirectory
      cases spot with
      | vacant directory name => cases hDirectory
      | found location node =>
          cases node with
          | directory => exact Or.inl ⟨location, hLocate⟩
          | file content => cases hDirectory
          | link target => cases hDirectory
          | nullDevice => cases hDirectory

/- What leads nowhere cannot be opened. -/
theorem cannotOpen_of_not_leads
    (hNowhere :
      ∀ spot,
        IsSearchable path →
          ¬ Leads files .follow maxLinks []
            (Step.ofPath path) spot) :
    files.CannotOpen path := by
  cases hLocate : files.locate .follow path with
  | error cause => exact Or.inr ⟨cause, hLocate⟩
  | ok spot =>
      rcases locate_eq_ok_iff.1 hLocate with
        ⟨hSearchable, hLeads⟩
      exact absurd hLeads (hNowhere spot hSearchable)

theorem refusals
    (files : FileSystem)
    (path : String) :
    files.Refusals path := by
  constructor
  · intro hDirectory
    exact cannotOpen_of_isDirectoryAt hDirectory
  · intro hPath
    apply cannotOpen_of_not_leads
    intro spot hSearchable hLeads
    exact hPath hSearchable
  · intro name hName hLong
    apply cannotOpen_of_not_leads
    intro spot hSearchable hLeads
    exact hLeads.unusable_not_mem
      (Step.unusable_mem_ofPath hName hLong)
  · intro front name hSteps hNone
    apply cannotOpen_of_not_leads
    intro spot hSearchable hLeads
    rw [hSteps] at hLeads
    rcases hLeads.exists_directory with ⟨directory, hFront⟩
    exact hNone directory hFront.walk_eq
  · intro hNowhere
    apply cannotOpen_of_not_leads
    intro spot hSearchable hLeads
    exact hNowhere maxLinks spot hLeads.walk_eq

end FileSystem

end LineShell

------------------------------------------------------------
-- Reading what was written
------------------------------------------------------------

namespace LineShell

namespace Spot

/- The location where a node is or could be put. -/
def location :
    Spot → Location
  | .found location _ => location
  | .vacant directory name => name :: directory

/-
  What a spot holds before something is written to it: the
  bytes of a file, and none where a name is free.
-/
def content? :
    Spot → Option ByteArray
  | .found _ (.file bytes) => some bytes
  | .found _ _ => none
  | .vacant _ _ => some ByteArray.empty

/- Where there is content there is a file or a free name. -/
theorem content?_eq_some_iff
    {spot : Spot}
    {bytes : ByteArray} :
    spot.content? = some bytes ↔
      (∃ location, spot = .found location (.file bytes)) ∨
        (∃ directory name,
          spot = .vacant directory name) ∧
          bytes = ByteArray.empty := by
  cases spot with
  | vacant directory name => simp [content?, eq_comm]
  | found location node =>
      cases node <;> simp [content?]

/- What can be written to without content is the device. -/
theorem IsWritable.exists_device
    {spot : Spot}
    (hWritable : spot.IsWritable)
    (hContent : spot.content? = none) :
    ∃ location, spot = .found location .nullDevice := by
  cases spot with
  | vacant directory name => cases hContent
  | found location node =>
      cases node with
      | nullDevice => exact ⟨location, rfl⟩
      | file old => cases hContent
      | directory => exact absurd hWritable id
      | link target => exact absurd hWritable id

/- At the place of content there is no other node. -/
theorem eq_file_of_content?
    {files : FileSystem}
    {spot : Spot}
    {bytes : ByteArray}
    (hIn : spot.IsIn files)
    (hContent : spot.content? = some bytes)
    {node : Node}
    (hNode : files.get? spot.location = some node) :
    node = .file bytes := by
  rcases content?_eq_some_iff.1 hContent with
    ⟨place, rfl⟩ | ⟨⟨directory, name, rfl⟩, hEmpty⟩
  · have hFile : files.get? place = some (.file bytes) :=
      hIn
    rw [location, hFile, Option.some.injEq] at hNode
    exact hNode.symm
  · have hFree := hIn.2
    rw [location, hFree] at hNode
    cases hNode

/- Content where a node is has been found there. -/
theorem eq_found_of_content?
    {files : FileSystem}
    {spot : Spot}
    {bytes : ByteArray}
    (hIn : spot.IsIn files)
    (hContent : spot.content? = some bytes)
    {node : Node}
    (hNode : files.get? spot.location = some node) :
    spot = .found spot.location node := by
  have hFile := eq_file_of_content? hIn hContent hNode
  rcases content?_eq_some_iff.1 hContent with
    ⟨place, rfl⟩ | ⟨⟨directory, name, rfl⟩, hEmpty⟩
  · rw [hFile]
    rfl
  · have hFree := hIn.2
    rw [location, hFree] at hNode
    cases hNode

end Spot

namespace FileSystem

/- The content that a path has before a write, if any. -/
def contentAt?
    (files : FileSystem)
    (path : String) : Option ByteArray :=
  match files.locate .follow path with
  | .ok spot => spot.content?
  | .error _ => none

variable
    {files after : FileSystem}
    {spot : Spot}
    {bytes : ByteArray}

/- Where there is content, it becomes what is written. -/
theorem writeFile_of_content
    {path : String}
    {old : ByteArray}
    (mode : WriteMode)
    (bytes : ByteArray)
    (hLocate : files.locate .follow path = .ok spot)
    (hContent : spot.content? = some old) :
    ∃ changed,
      files.writeFile mode path bytes = .ok changed ∧
        changed.IsWith files spot.location
          (.file (writtenContent mode old bytes)) := by
  rcases Spot.content?_eq_some_iff.1 hContent with
    ⟨location, rfl⟩ | ⟨⟨directory, name, rfl⟩, rfl⟩
  · exact writeFile_of_file mode bytes hLocate
  · have hWritten :
        writtenContent mode ByteArray.empty bytes =
          bytes := by
      cases mode with
      | truncate => rfl
      | append => exact ByteArray.empty_append
    rw [hWritten]
    exact writeFile_of_vacant mode bytes hLocate

/-
  Where a file was put, the steps that led to its place lead
  to the file: they pass through directories and links only.
-/
theorem Leads.found_of_isWith
    {links : Nat}
    {here : Location}
    {steps : List Step}
    {old : ByteArray}
    (hLeads : Leads files .follow links here steps spot)
    (hContent : spot.content? = some old)
    (hPlace :
      ∀ node,
        files.get? spot.location = some node →
          node = .file old)
    (hWith :
      after.IsWith files spot.location (.file bytes)) :
    Leads after .follow links here steps
      (.found spot.location (.file bytes)) := by
  have hPassed :
      ∀ {location node},
        files.get? location = some node →
          node ≠ .file old →
            after.get? location = some node := by
    intro location node hFound hNode
    rw [hWith.kept, hFound]
    rintro rfl
    exact hNode (hPlace node hFound)
  induction hLeads with
  | arrive => cases hContent
  | stay hRest ih =>
      exact .stay (ih hContent hPlace hWith)
  | slash hRest ih =>
      exact .slash (ih hContent hPlace hWith)
  | up hRest ih =>
      exact .up (ih hContent hPlace hWith)
  | vacant hFree =>
      exact .stop hWith.changed (by simp)
  | stop hNode hLeaf =>
      exact .stop hWith.changed (by simp)
  | keep hLink hKeep => cases hKeep
  | enter hNode hWish hRest ih =>
      exact .enter (hPassed hNode (by simp)) hWish
        (ih hContent hPlace hWith)
  | follow hLink hText hWish hFollow hRest ih =>
      exact .follow (hPassed hLink (by simp)) hText hWish
        hFollow (ih hContent hPlace hWith)

/- A path still leads to the place where a file was put. -/
theorem locate_of_isWith
    {path : String}
    {old : ByteArray}
    (hLocate : files.locate .follow path = .ok spot)
    (hContent : spot.content? = some old)
    (hWith :
      after.IsWith files spot.location (.file bytes)) :
    after.locate .follow path =
      .ok (.found spot.location (.file bytes)) := by
  rcases locate_eq_ok_iff.1 hLocate with
    ⟨hSearchable, hLeads⟩
  refine locate_eq_ok_iff.2 ⟨hSearchable, ?_⟩
  apply hLeads.found_of_isWith hContent ?_ hWith
  intro node hNode
  exact Spot.eq_file_of_content?
    (isIn_of_locate hLocate) hContent hNode

/- A file that a path leads to is read by it. -/
theorem readFile_of_locate
    {path : String}
    {location : Location}
    (hLocate :
      files.locate .follow path =
        .ok (.found location (.file bytes))) :
    files.readFile path = .ok bytes := by
  have hNode := nodeAt_eq_ok_iff.2 ⟨location, hLocate⟩
  simp [readFile, hNode, bind, Except.bind]

/- A file that was put where a path leads is read by it. -/
theorem readFile_of_isWith
    {path : String}
    {old : ByteArray}
    (hLocate : files.locate .follow path = .ok spot)
    (hContent : spot.content? = some old)
    (hWith :
      after.IsWith files spot.location (.file bytes)) :
    after.readFile path = .ok bytes :=
  readFile_of_locate
    (locate_of_isWith hLocate hContent hWith)

end FileSystem

end LineShell

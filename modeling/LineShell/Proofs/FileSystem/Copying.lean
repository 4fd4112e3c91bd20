import LineShell.Proofs.FileSystem.Growing

/-
  What copying a file leaves behind. The target is emptied
  before the source is read: where it is a file or a name at
  another place, it gets the bytes of the source, and where
  it is the source itself, the file ends up empty.

  Key definitions include:
    * `FileSystem.LeadsToFile`
    * `FileSystem.AreAliases`
    * `FileSystem.CanCopy`
    * `FileSystem.IsCopied`

  Correctness is proven by:
    * `FileSystem.isCopied_of_canCopy`
    * `FileSystem.copyFile_of_not_canCopy`
-/

------------------------------------------------------------
-- Places beside a change
------------------------------------------------------------

namespace LineShell

namespace FileSystem

variable
    {files after : FileSystem}

/- A path leads to the file with these bytes at a place. -/
def LeadsToFile
    (files : FileSystem)
    (path : String)
    (place : Location)
    (bytes : ByteArray) : Prop :=
  files.locate .follow path =
    .ok (.found place (.file bytes))

namespace LeadsToFile

variable
    {path : String}
    {place : Location}
    {bytes : ByteArray}

theorem readFile_eq
    (hFile : files.LeadsToFile path place bytes) :
    files.readFile path = .ok bytes :=
  readFile_of_locate hFile

/- A path leads to one file at most. -/
theorem unique
    {other : Location}
    {content : ByteArray}
    (hFile : files.LeadsToFile path place bytes)
    (hOther : files.LeadsToFile path other content) :
    other = place ∧ content = bytes := by
  unfold LeadsToFile at hFile hOther
  rw [hFile] at hOther
  cases hOther
  exact ⟨rfl, rfl⟩

/-
  A path that leads to one file still does after another one
  was put where a file or nothing was.
-/
theorem beside
    {target : String}
    {spot : Spot}
    {old : ByteArray}
    {node : Node}
    (hFile : files.LeadsToFile path place bytes)
    (hTarget : files.locate .follow target = .ok spot)
    (hContent : spot.content? = some old)
    (hApart : spot.location ≠ place)
    (hWith : after.IsWith files spot.location node) :
    after.LeadsToFile path place bytes := by
  have hIn := isIn_of_locate hTarget
  have hPassed :
      ∀ location passed,
        files.get? location = some passed →
          (∀ content, passed ≠ .file content) →
            after.get? location = some passed := by
    intro location passed hNode hNoFile
    rw [hWith.kept, hNode]
    rintro rfl
    have hOld :=
      Spot.eq_file_of_content? hIn hContent hNode
    exact hNoFile old hOld
  rcases locate_eq_ok_iff.1 hFile with
    ⟨hSearchable, hLeads⟩
  refine locate_eq_ok_iff.2 ⟨hSearchable, ?_⟩
  apply hLeads.of_passed
  · intro location hDirectory
    exact hPassed location _ hDirectory (by simp)
  · intro location text hLink
    exact hPassed location _ hLink (by simp)
  · exact hWith.kept _ hApart.symm

end LeadsToFile

end FileSystem

end LineShell

------------------------------------------------------------
-- Copying
------------------------------------------------------------

namespace LineShell

namespace FileSystem

/- Two paths lead to one and the same file. -/
def AreAliases
    (files : FileSystem)
    (first second : String) : Prop :=
  ∃ place bytes,
    files.LeadsToFile first place bytes ∧
      files.LeadsToFile second place bytes

/- There is a file to copy, and the target can be opened. -/
def CanCopy
    (files : FileSystem)
    (source target : String) : Prop :=
  (∃ place bytes, files.LeadsToFile source place bytes) ∧
    ¬ files.CannotOpen target

/-
  What a copy of a source with these bytes leaves behind. At
  most the place to which the target leads is another one: a
  device stays as it is, and a target that is the source by
  another path is left empty.
-/
structure IsCopied
    (after files : FileSystem)
    (source target : String)
    (bytes : ByteArray) : Prop where
  others :
    ∃ spot,
      files.locate .follow target = .ok spot ∧
        ∀ other,
          other ≠ spot.location →
            after.get? other = files.get? other
  source_reads :
    ¬ files.AreAliases source target →
      after.readFile source = .ok bytes
  target_reads :
    ¬ files.AreAliases source target →
      files.nodeAt target ≠ .ok .nullDevice →
        after.readFile target = .ok bytes
  at_device :
    files.nodeAt target = .ok .nullDevice → after = files
  emptied :
    files.AreAliases source target →
      after.readFile source = .ok ByteArray.empty ∧
        after.readFile target = .ok ByteArray.empty

variable
    {files : FileSystem}
    {source target : String}
    {place : Location}
    {bytes : ByteArray}

/- Two changes at one location are the second one. -/
theorem IsWith.again
    {first second : FileSystem}
    {location : Location}
    {node other : Node}
    (hFirst : first.IsWith files location node)
    (hSecond : second.IsWith first location other) :
    second.IsWith files location other where
  changed := hSecond.changed
  kept := by
    intro elsewhere hElsewhere
    rw [hSecond.kept elsewhere hElsewhere,
      hFirst.kept elsewhere hElsewhere]

/- From a file to a file, the bytes pass the emptied target. -/
theorem copyFile_of_emptied
    {emptied copied : FileSystem}
    {passed : ByteArray}
    (hFile : files.LeadsToFile source place bytes)
    (hEmptied :
      files.writeFile .truncate target ByteArray.empty =
        .ok emptied)
    (hRead : emptied.readFile source = .ok passed)
    (hCopied :
      emptied.writeFile .append target passed =
        .ok copied) :
    files.copyFile source target = .ok copied := by
  have hNode : files.nodeAt source = .ok (.file bytes) :=
    nodeAt_eq_ok_iff.2 ⟨place, hFile⟩
  simp [copyFile, hNode, hEmptied, hRead, hCopied, bind,
    Except.bind]

/-
  Where the target leads to a file or a free name, it gets
  what can be read from the source once it is empty itself.
-/
theorem exists_copyFile
    {spot : Spot}
    {old : ByteArray}
    (hFile : files.LeadsToFile source place bytes)
    (hTarget : files.locate .follow target = .ok spot)
    (hContent : spot.content? = some old) :
    ∃ copied passed,
      files.copyFile source target = .ok copied ∧
        copied.IsWith files spot.location (.file passed) ∧
        (spot.location ≠ place → passed = bytes) ∧
        (spot.location = place → passed = ByteArray.empty) := by
  rcases writeFile_of_content .truncate ByteArray.empty
      hTarget hContent with
    ⟨emptied, hEmptied, hWith⟩
  have hSpot :
      emptied.LeadsToFile target spot.location
        ByteArray.empty :=
    locate_of_isWith hTarget hContent hWith
  have hPassed :
      ∃ passed,
        emptied.readFile source = .ok passed ∧
          (spot.location ≠ place → passed = bytes) ∧
          (spot.location = place →
            passed = ByteArray.empty) := by
    by_cases hPlace : spot.location = place
    · have hSource :
          emptied.LeadsToFile source place
            ByteArray.empty :=
        locate_of_isWith hFile rfl (hPlace ▸ hWith)
      exact ⟨_, hSource.readFile_eq, fun hApart =>
        absurd hPlace hApart, fun _ => rfl⟩
    · have hSource :=
        hFile.beside hTarget hContent hPlace hWith
      exact ⟨_, hSource.readFile_eq, fun _ => rfl,
        fun hSame => absurd hSame hPlace⟩
  rcases hPassed with ⟨passed, hRead, hPassed⟩
  rcases writeFile_of_content .append passed hSpot rfl with
    ⟨copied, hCopied, hAgain⟩
  have hSame :
      writtenContent .append ByteArray.empty passed =
        passed :=
    ByteArray.empty_append
  rw [hSame] at hAgain
  exact ⟨copied, passed,
    copyFile_of_emptied hFile hEmptied hRead hCopied,
    hWith.again hAgain, hPassed⟩

/- A device takes the bytes, and nothing changes. -/
theorem copyFile_of_device
    {location : Location}
    (hFile : files.LeadsToFile source place bytes)
    (hTarget :
      files.locate .follow target =
        .ok (.found location .nullDevice)) :
    files.copyFile source target = .ok files :=
  copyFile_of_emptied hFile
    (writeFile_of_device .truncate ByteArray.empty hTarget)
    hFile.readFile_eq
    (writeFile_of_device .append bytes hTarget)

/- Paths to files at one place are aliases. -/
theorem areAliases_iff
    (hFile : files.LeadsToFile source place bytes) :
    files.AreAliases source target ↔
      files.LeadsToFile target place bytes := by
  constructor
  · rintro ⟨other, content, hSource, hTarget⟩
    rcases hFile.unique hSource with ⟨rfl, rfl⟩
    exact hTarget
  · intro hTarget
    exact ⟨place, bytes, hFile, hTarget⟩

/- An alias is a file, and a file can be opened. -/
theorem AreAliases.canCopy
    (hAliases : files.AreAliases source target) :
    files.CanCopy source target := by
  rcases hAliases with ⟨place, bytes, hSource, hTarget⟩
  unfold LeadsToFile at hTarget
  refine ⟨⟨place, bytes, hSource⟩, ?_⟩
  rintro (⟨location, hDirectory⟩ | ⟨cause, hError⟩)
  · rw [hTarget] at hDirectory
    cases hDirectory
  · rw [hTarget] at hError
    cases hError

/- A path with content does not name a device. -/
theorem nodeAt_ne_nullDevice
    {path : String}
    {spot : Spot}
    {old : ByteArray}
    (hLocate : files.locate .follow path = .ok spot)
    (hContent : spot.content? = some old) :
    files.nodeAt path ≠ .ok .nullDevice := by
  intro hDevice
  rcases nodeAt_eq_ok_iff.1 hDevice with
    ⟨location, hFound⟩
  rw [hLocate, Except.ok.injEq] at hFound
  rw [hFound] at hContent
  cases hContent

/- A copy into a file or a free name. -/
theorem isCopied_of_content
    {spot : Spot}
    {old : ByteArray}
    (hFile : files.LeadsToFile source place bytes)
    (hTarget : files.locate .follow target = .ok spot)
    (hContent : spot.content? = some old) :
    ∃ copied,
      files.copyFile source target = .ok copied ∧
        copied.IsCopied files source target bytes := by
  rcases exists_copyFile hFile hTarget hContent with
    ⟨copied, passed, hCopy, hWith, hApart, hSame⟩
  have hReads : copied.readFile target = .ok passed :=
    readFile_of_isWith hTarget hContent hWith
  have hPlace :
      files.AreAliases source target ↔
        spot.location = place := by
    rw [areAliases_iff hFile]
    constructor
    · intro hAlias
      unfold LeadsToFile at hAlias
      rw [hTarget, Except.ok.injEq] at hAlias
      rw [hAlias]
      rfl
    · rintro rfl
      have hFound :=
        Spot.eq_found_of_content? (isIn_of_locate hTarget)
          hContent (isIn_of_locate hFile)
      exact hTarget.trans (congrArg Except.ok hFound)
  refine ⟨copied, hCopy, ?_, ?_, ?_, ?_, ?_⟩
  · exact ⟨spot, hTarget, hWith.kept⟩
  · intro hNoAlias
    have hOther := mt hPlace.2 hNoAlias
    exact (hFile.beside hTarget hContent hOther
      hWith).readFile_eq
  · intro hNoAlias hNoDevice
    rw [hReads, hApart (mt hPlace.2 hNoAlias)]
  · intro hDevice
    exact absurd hDevice
      (nodeAt_ne_nullDevice hTarget hContent)
  · intro hAlias
    have hHere := hPlace.1 hAlias
    have hEmpty := hSame hHere
    subst hHere
    rw [hEmpty] at hWith hReads
    exact ⟨readFile_of_isWith hFile rfl hWith, hReads⟩

/- What can be copied is copied. -/
theorem isCopied_of_canCopy
    (hFile : files.LeadsToFile source place bytes)
    (hOpen : ¬ files.CannotOpen target) :
    ∃ copied,
      files.copyFile source target = .ok copied ∧
        copied.IsCopied files source target bytes := by
  rcases locate_follow_cases files target with
    ⟨spot, hTarget, hWritable⟩ | hClosed
  case inr => exact absurd hClosed hOpen
  case inl =>
    cases hContent : spot.content? with
    | some old =>
        exact isCopied_of_content hFile hTarget hContent
    | none =>
        rcases Spot.IsWritable.exists_device hWritable
            hContent with
          ⟨location, rfl⟩
        have hDevice :=
          nodeAt_eq_ok_iff.2 ⟨location, hTarget⟩
        have hNoAlias : ¬ files.AreAliases source target := by
          rw [areAliases_iff hFile]
          intro hAlias
          unfold LeadsToFile at hAlias
          rw [hTarget] at hAlias
          cases hAlias
        refine ⟨files, copyFile_of_device hFile hTarget,
          ?_, ?_, ?_, ?_, ?_⟩
        · exact ⟨_, hTarget, fun _ _ => rfl⟩
        · intro _
          exact hFile.readFile_eq
        · intro _ hNoDevice
          exact absurd hDevice hNoDevice
        · intro _
          rfl
        · intro hAlias
          exact absurd hAlias hNoAlias

/- Without a file or a way to the target nothing is copied. -/
theorem copyFile_of_not_canCopy
    (hCannot : ¬ files.CanCopy source target) :
    ∃ cause, files.copyFile source target = .error cause := by
  unfold copyFile
  cases hNode : files.nodeAt source with
  | error cause => exact ⟨cause, rfl⟩
  | ok node =>
      cases node with
      | directory => exact ⟨.irregularSource, rfl⟩
      | link text => exact ⟨.irregularSource, rfl⟩
      | nullDevice => exact ⟨.irregularSource, rfl⟩
      | file bytes =>
          rcases nodeAt_eq_ok_iff.1 hNode with
            ⟨place, hFile⟩
          have hClosed : files.CannotOpen target := by
            apply Classical.byContradiction
            intro hOpen
            exact hCannot ⟨⟨place, bytes, hFile⟩, hOpen⟩
          rcases writeFile_of_cannotOpen .truncate
              ByteArray.empty hClosed with
            ⟨cause, hError⟩
          refine ⟨cause, ?_⟩
          simp [hError, bind, Except.bind]

end FileSystem

end LineShell

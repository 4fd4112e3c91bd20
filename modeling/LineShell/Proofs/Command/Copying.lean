import LineShell.Proofs.FileSystem.Copying
import LineShell.Proofs.Session.CurrentDirectory

/-
  What `cp` does. A call that fails leaves the files as they
  are; one that succeeds gives the bytes of the source to
  the destination and changes nothing else. The source keeps
  its bytes unless the destination leads to the same file by
  another path: then both read as empty afterwards.

  Key definitions include:
    * `FileSystem.IsDestination`
    * `Answer.IsCopy`

  Correctness is proven by:
    * `FileManagement.destination_eq_ok_iff`
    * `FileManagement.cp_copies_or_keeps`
-/

------------------------------------------------------------
-- Destinations
------------------------------------------------------------

namespace LineShell

namespace FileSystem

variable
    {files : FileSystem}
    {path source second target : String}

/-
  Where an entry ends up that is copied or moved: below the
  second path under the file name of the source, if that
  path names a directory, and at the second path otherwise.
-/
def IsDestination
    (files : FileSystem)
    (source second target : String) : Prop :=
  (files.NamesDirectory second ∧
    ∃ name,
      Path.fileName? source = some name ∧
        target = Path.join second name) ∨
    ¬ files.NamesDirectory second ∧ target = second

end FileSystem

namespace FileManagement

variable
    {files : FileSystem}
    {source second target : String}

theorem destination_eq_ok_iff :
    destination files source second = .ok target ↔
      files.IsDestination source second target := by
  unfold destination FileSystem.IsDestination
  split
  case isTrue hDirectory =>
    have hNames := FileSystem.isDirectoryAt_iff.1 hDirectory
    cases hName : Path.fileName? source <;>
      simp [hNames, eq_comm]
  case isFalse hNone =>
    have hNames := mt FileSystem.isDirectoryAt_iff.2 hNone
    simp [hNames, eq_comm]

/- A pair of paths has one destination at most. -/
theorem isDestination_unique
    {other : String}
    (hTarget : files.IsDestination source second target)
    (hOther : files.IsDestination source second other) :
    other = target := by
  rw [← destination_eq_ok_iff] at hTarget hOther
  rw [hTarget, Except.ok.injEq] at hOther
  exact hOther.symm

end FileManagement

end LineShell

------------------------------------------------------------
-- Copying
------------------------------------------------------------

namespace LineShell

/-
  An answer to the wish to copy. A source keeps its bytes,
  whether the copy succeeds or not, except that it ends up
  empty where its destination is an alias of it in another
  text.
-/
structure Answer.IsCopy
    (answer : Answer)
    (files : FileSystem)
    (source second : String) : Prop where
  failed :
    ∀ fault,
      answer.result = .error fault → answer.files = files
  succeeds_iff :
    (∃ text, answer.result = .ok text) ↔
      ∃ target,
        files.IsDestination source second target ∧
          target ≠ source ∧ files.CanCopy source target
  copied :
    ∀ text target bytes,
      answer.result = .ok text →
        files.IsDestination source second target →
          files.readFile source = .ok bytes →
            answer.files.IsCopied files source target bytes
  kept :
    (∀ target,
      files.IsDestination source second target →
        target = source ∨
          ¬ files.AreAliases source target) →
      answer.files.readFile source = files.readFile source
  emptied :
    ∀ target,
      files.IsDestination source second target →
        target ≠ source →
          files.AreAliases source target →
            answer.files.readFile source =
              .ok ByteArray.empty

namespace FileManagement

variable
    {files : FileSystem}
    {source second target : String}

/- A copy that was made, to the only destination there is. -/
theorem isCopy_of_isCopied
    {copied : FileSystem}
    {place : Location}
    {bytes : ByteArray}
    (hFile : files.LeadsToFile source place bytes)
    (hTarget : files.IsDestination source second target)
    (hOther : target ≠ source)
    (hOpen : ¬ files.CannotOpen target)
    (hCopied : copied.IsCopied files source target bytes) :
    (Answer.plain copied none).IsCopy files source
      second where
  failed := by
    intro fault hFault
    cases hFault
  succeeds_iff := by
    constructor
    · intro hSuccess
      exact ⟨target, hTarget, hOther,
        ⟨place, bytes, hFile⟩, hOpen⟩
    · intro hCan
      exact ⟨none, rfl⟩
  copied := by
    intro text other content hText hSame hRead
    rcases isDestination_unique hTarget hSame with rfl
    rw [hFile.readFile_eq, Except.ok.injEq] at hRead
    exact hRead ▸ hCopied
  kept := by
    intro hApart
    rw [hFile.readFile_eq]
    exact hCopied.source_reads
      ((hApart target hTarget).resolve_left hOther)
  emptied := by
    intro other hSame hNot hAlias
    rcases isDestination_unique hTarget hSame with rfl
    exact (hCopied.emptied hAlias).1

/- Where nothing can be copied a fault is the right answer. -/
theorem isCopy_of_refused
    (hCannot :
      ∀ target,
        files.IsDestination source second target →
          target ≠ source →
            ¬ files.CanCopy source target)
    (fault : Fault) :
    (Answer.fail files fault).IsCopy files source
      second where
  failed := by
    intro other hOther
    rfl
  succeeds_iff := by
    constructor
    · rintro ⟨text, hText⟩
      cases hText
    · rintro ⟨target, hTarget, hOther, hCan⟩
      exact absurd hCan (hCannot target hTarget hOther)
  copied := by
    intro text target bytes hText
    cases hText
  kept := by
    intro hApart
    rfl
  emptied := by
    intro target hTarget hOther hAlias
    exact absurd hAlias.canCopy
      (hCannot target hTarget hOther)

/- What can be copied to its destination is copied. -/
theorem run_cp_of_canCopy
    {call : Call}
    {place : Location}
    {bytes : ByteArray}
    (hFile :
      files.LeadsToFile (call.resolve (call.arg 0)) place
        bytes)
    (hTarget :
      files.IsDestination (call.resolve (call.arg 0))
        (call.resolve (call.arg 1)) target)
    (hOther : target ≠ call.resolve (call.arg 0))
    (hOpen : ¬ files.CannotOpen target) :
    ∃ copied,
      cp.run call files = .plain copied none ∧
        copied.IsCopied files (call.resolve (call.arg 0))
          target bytes := by
  rw [← destination_eq_ok_iff] at hTarget
  unfold cp
  dsimp only
  generalize call.resolve (call.arg 0) = source
    at hFile hTarget hOther ⊢
  rcases FileSystem.isCopied_of_canCopy hFile hOpen with
    ⟨copied, hCopy, hCopied⟩
  refine ⟨copied, ?_, hCopied⟩
  have hNode : files.nodeAt source = .ok (.file bytes) :=
    FileSystem.nodeAt_eq_ok_iff.2 ⟨place, hFile⟩
  simp [Answer.looking, Answer.changing, hNode,
    Node.isDirectory, hTarget, hOther, hCopy]

/- What cannot be copied is refused, and nothing changes. -/
theorem run_cp_of_not_canCopy
    {call : Call}
    (hCannot :
      ∀ target,
        files.IsDestination (call.resolve (call.arg 0))
            (call.resolve (call.arg 1)) target →
          target ≠ call.resolve (call.arg 0) →
            ¬ files.CanCopy (call.resolve (call.arg 0))
              target) :
    ∃ fault, cp.run call files = .fail files fault := by
  unfold cp
  dsimp only
  generalize call.resolve (call.arg 0) = source at hCannot ⊢
  cases hNode : files.nodeAt source with
  | error cause => exact ⟨_, rfl⟩
  | ok node =>
      simp only [Answer.looking]
      split
      case isTrue => exact ⟨_, rfl⟩
      case isFalse =>
        split
        case h_1 fault hNone => exact ⟨_, rfl⟩
        case h_2 target hTarget =>
          rw [destination_eq_ok_iff] at hTarget
          split
          case isTrue => exact ⟨_, rfl⟩
          case isFalse hOther =>
            rcases FileSystem.copyFile_of_not_canCopy
                (hCannot target hTarget hOther) with
              ⟨cause, hError⟩
            rw [hError]
            exact ⟨_, rfl⟩

/-
  A copy succeeds or leaves everything as it is. It damages
  its source exactly where the destination is another path
  to the same file.
-/
theorem cp_copies_or_keeps
    (call : Call)
    (files : FileSystem) :
    (cp.run call files).IsCopy files
      (call.resolve (call.arg 0))
      (call.resolve (call.arg 1)) := by
  generalize hSource : call.resolve (call.arg 0) = source
  generalize hSecond : call.resolve (call.arg 1) = second
  by_cases hCan :
    ∃ target,
      files.IsDestination source second target ∧
        target ≠ source ∧ files.CanCopy source target
  case pos =>
    rcases hCan with
      ⟨target, hTarget, hOther, ⟨place, bytes, hFile⟩, hOpen⟩
    subst hSource hSecond
    rcases run_cp_of_canCopy hFile hTarget hOther hOpen with
      ⟨copied, hRun, hCopied⟩
    rw [hRun]
    exact isCopy_of_isCopied hFile hTarget hOther hOpen
      hCopied
  case neg =>
    have hCannot :
        ∀ target,
          files.IsDestination source second target →
            target ≠ source →
              ¬ files.CanCopy source target := by
      intro target hTarget hOther hCopy
      exact hCan ⟨target, hTarget, hOther, hCopy⟩
    subst hSource hSecond
    rcases run_cp_of_not_canCopy hCannot with ⟨fault, hRun⟩
    rw [hRun]
    exact isCopy_of_refused hCannot fault

/- A file that is copied onto a link to it ends up empty. -/
theorem cp_onto_link_empties_source :
    ∃ files : FileSystem,
      files.get? [⟨"a", by decide⟩] =
          some (.file "alpha".toByteArray) ∧
        files.get? [⟨"l", by decide⟩] = some (.link "a") ∧
        (cp.run
          ⟨["a", "l"], none, ⟨"/", "/"⟩, [], false⟩
          files).result =
          .ok none ∧
        files.readFile "/a" = .ok "alpha".toByteArray ∧
        (cp.run
          ⟨["a", "l"], none, ⟨"/", "/"⟩, [], false⟩
          files).files.readFile "/a" =
          .ok ByteArray.empty := by
  let entries : Entries :=
    [([⟨"l", by decide⟩], .link "a"),
      ([⟨"a", by decide⟩], .file "alpha".toByteArray)]
  have hSound : entries.Sound := by
    refine ⟨by decide, ?_⟩
    intro location node hMem
    simp only [entries, List.mem_cons, List.not_mem_nil,
      or_false, Prod.mk.injEq] at hMem
    rcases hMem with ⟨rfl, rfl⟩ | ⟨rfl, rfl⟩
    · exact ⟨_, _, rfl, Or.inl rfl⟩
    · exact ⟨_, _, rfl, Or.inl rfl⟩
  exact ⟨⟨entries, hSound⟩, rfl, rfl, rfl, rfl, rfl⟩

end FileManagement

end LineShell

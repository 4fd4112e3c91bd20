import LineShell.Command.FileManagement
import LineShell.Proofs.FileSystem.Making

/-
  What `mkdir` does. It adds directories and nothing else,
  at its arguments and at the paths above them. It fails for
  the first argument in whose way there is something, and
  where it succeeds every argument names a directory.

  Key definitions include:
    * `Call.IsFirstBlocked`
    * `Answer.IsMaking`

  Correctness is proven by:
    * `FileManagement.changeEach_cases`
    * `FileManagement.mkdir_only_adds`
-/

------------------------------------------------------------
-- One path after the other
------------------------------------------------------------

namespace LineShell

namespace FileManagement

variable
    {change : FileSystem → String → Progress}
    {files before : FileSystem}
    {front back paths : List String}
    {path : String}

/- A change that succeeds hands its files to the others. -/
theorem changeEach_cons_of_done
    (hDone : (change files path).fault = none) :
    changeEach change (path :: paths) files =
      changeEach change paths (change files path).files := by
  rw [changeEach, hDone]

/- A change that fails ends the row. -/
theorem changeEach_cons_of_fault
    {cause : FileError}
    (hFault : (change files path).fault = some cause) :
    changeEach change (path :: paths) files =
      .fail (change files path).files
        (.atPath path cause) := by
  rw [changeEach, hFault]

/- A row succeeds if its first change and the others do. -/
theorem changeEach_cons_eq_plain_iff
    {after : FileSystem} :
    changeEach change (path :: paths) files =
        .plain after none ↔
      (change files path).fault = none ∧
        changeEach change paths (change files path).files =
          .plain after none := by
  cases hFault : (change files path).fault with
  | none => rw [changeEach_cons_of_done hFault]; simp
  | some cause =>
      rw [changeEach_cons_of_fault hFault]
      simp [Answer.fail, Answer.plain]

/- What follows a row that succeeds goes on from its files. -/
theorem changeEach_append
    (hFront :
      changeEach change front files = .plain before none) :
    changeEach change (front ++ back) files =
      changeEach change back before := by
  induction front generalizing files with
  | nil =>
      cases hFront
      rfl
  | cons path rest ih =>
      rcases changeEach_cons_eq_plain_iff.1 hFront with
        ⟨hDone, hRest⟩
      rw [List.cons_append, changeEach_cons_of_done hDone]
      exact ih hRest

/- A row of changes succeeds, or one is the first to fail. -/
theorem changeEach_cases
    (change : FileSystem → String → Progress)
    (paths : List String)
    (files : FileSystem) :
    (∃ after,
      changeEach change paths files = .plain after none) ∨
      ∃ front path back before cause,
        paths = front ++ path :: back ∧
          changeEach change front files =
            .plain before none ∧
          (change before path).fault = some cause := by
  induction paths generalizing files with
  | nil => exact Or.inl ⟨files, rfl⟩
  | cons path rest ih =>
      cases hFault : (change files path).fault with
      | some cause =>
          exact Or.inr
            ⟨[], path, rest, files, cause, rfl, rfl, hFault⟩
      | none =>
          rcases ih (change files path).files with
            ⟨after, hAfter⟩ |
            ⟨front, other, back, before, cause, rfl, hFront,
              hOther⟩
          · exact Or.inl
              ⟨after,
                changeEach_cons_eq_plain_iff.2
                  ⟨hFault, hAfter⟩⟩
          · exact Or.inr
              ⟨path :: front, other, back, before, cause, rfl,
                changeEach_cons_eq_plain_iff.2
                  ⟨hFault, hFront⟩,
                hOther⟩

end FileManagement

end LineShell

------------------------------------------------------------
-- Rows of directories
------------------------------------------------------------

namespace LineShell

namespace FileManagement

open FileSystem (makeDirectories)

variable
    {files : FileSystem}
    {paths : List String}

/- Directories that are made take nothing away. -/
theorem keeps_changeEach
    (paths : List String)
    (files : FileSystem) :
    files.Keeps
      (changeEach makeDirectories paths files).files := by
  induction paths generalizing files with
  | nil => exact .refl files
  | cons path rest ih =>
      have hFirst := files.keeps_makeDirectories path
      cases hFault : (files.makeDirectories path).fault with
      | none =>
          rw [changeEach_cons_of_done hFault]
          exact hFirst.trans (ih _)
      | some cause =>
          rw [changeEach_cons_of_fault hFault]
          dsimp only [Answer.fail]
          exact hFirst

/- What is new is a directory at a path or above one. -/
theorem exists_locate_changeEach
    {location : Location}
    {node : Node}
    (hFree : files.get? location = none)
    (hNode :
      (changeEach makeDirectories paths files).files.get?
          location =
        some node) :
    node = .directory ∧
      ∃ path ∈ paths,
        ∃ above ∈ Path.upward path,
          (changeEach makeDirectories paths
              files).files.locate .follow above =
            .ok (.found location .directory) := by
  induction paths generalizing files with
  | nil =>
      have hSame : files.get? location = some node := hNode
      rw [hFree] at hSame
      cases hSame
  | cons path rest ih =>
      -- A directory that is made here stays where it is.
      have hHere :
          ∀ node,
            (files.makeDirectories path).files.get?
                location =
              some node →
              node = .directory ∧
                ∃ above ∈ Path.upward path,
                  (files.makeDirectories
                      path).files.locate .follow above =
                    .ok (.found location .directory) :=
        fun node => FileSystem.exists_locate_makeChain hFree
      cases hFault : (files.makeDirectories path).fault with
      | some cause =>
          rw [changeEach_cons_of_fault hFault] at hNode ⊢
          dsimp only [Answer.fail] at hNode ⊢
          rcases hHere node hNode with
            ⟨hDirectory, above, hAbove, hLocate⟩
          exact ⟨hDirectory, path, List.mem_cons_self, above,
            hAbove, hLocate⟩
      | none =>
          rw [changeEach_cons_of_done hFault] at hNode ⊢
          have hKeeps :=
            keeps_changeEach rest
              (files.makeDirectories path).files
          cases hOld :
              (files.makeDirectories path).files.get?
                location with
          | some old =>
              rcases hHere old hOld with
                ⟨rfl, above, hAbove, hLocate⟩
              rw [hKeeps location _ hOld,
                Option.some.injEq] at hNode
              exact ⟨hNode.symm, path, List.mem_cons_self,
                above, hAbove, hKeeps.locate_found hLocate⟩
          | none =>
              rcases ih hOld hNode with
                ⟨hDirectory, other, hMem, hOther⟩
              exact ⟨hDirectory, other,
                List.mem_cons_of_mem path hMem, hOther⟩

/- A row of directories that are there changes nothing. -/
theorem changeEach_of_namesDirectory
    (hPlain : ∀ path ∈ paths, Path.IsPlain path)
    (hThere : ∀ path ∈ paths, files.NamesDirectory path) :
    changeEach makeDirectories paths files =
      .plain files none := by
  induction paths with
  | nil => rfl
  | cons path rest ih =>
      rw [List.forall_mem_cons] at hPlain hThere
      have hSame :=
        FileSystem.makeDirectories_of_namesDirectory
          hPlain.1 hThere.1
      have hDone : (files.makeDirectories path).fault = none := by
        rw [hSame]
      rw [changeEach_cons_of_done hDone, hSame]
      exact ih hPlain.2 hThere.2

/- A row that succeeds leaves directories at all its paths. -/
theorem namesDirectory_of_changeEach
    {after : FileSystem}
    (hPlain : ∀ path ∈ paths, Path.IsPlain path)
    (hDone :
      changeEach makeDirectories paths files =
        .plain after none) :
    ∀ path ∈ paths, after.NamesDirectory path := by
  induction paths generalizing files with
  | nil => simp
  | cons path rest ih =>
      rw [List.forall_mem_cons] at hPlain ⊢
      rcases changeEach_cons_eq_plain_iff.1 hDone with
        ⟨hFirst, hRest⟩
      have hKeeps :=
        keeps_changeEach rest
          (files.makeDirectories path).files
      rw [hRest] at hKeeps
      have hClear :=
        (FileSystem.fault_makeDirectories_iff hPlain.1).1
          hFirst
      have hMade :=
        (FileSystem.namesDirectory_of_isClear hPlain.1
          hClear).2
      exact ⟨hKeeps.namesDirectory hMade, ih hPlain.2 hRest⟩

end FileManagement

end LineShell

------------------------------------------------------------
-- Making
------------------------------------------------------------

namespace LineShell

/- Resolved arguments are plain. -/
theorem Call.isPlain_resolve
    (call : Call)
    (raw : String) :
    Path.IsPlain (call.resolve raw) := by
  unfold Call.resolve Directories.resolve Path.resolve
  exact Path.isPlain_normalize _

theorem Call.isPlain_of_mem_map
    (call : Call)
    {path : String}
    (hMem : path ∈ call.args.map call.resolve) :
    Path.IsPlain path := by
  rcases List.mem_map.1 hMem with ⟨raw, hRaw, rfl⟩
  exact call.isPlain_resolve raw

/-
  The argument for which a call of `mkdir` cannot go on: all
  those before it are made, and then something is in its way
  or above it.
-/
def Call.IsFirstBlocked
    (call : Call)
    (files : FileSystem)
    (raw : String) : Prop :=
  ∃ front back before,
    call.args = front ++ raw :: back ∧
      FileManagement.mkdir.run { call with args := front }
          files =
        .plain before none ∧
      ∃ above ∈ Path.upward (call.resolve raw),
        before.IsBlocked above

/-
  An answer to the wish to make directories. Whether it
  succeeds or not, it only adds directories, and only those
  that were asked for and the ones above them.
-/
structure Answer.IsMaking
    (answer : Answer)
    (call : Call)
    (files : FileSystem) : Prop where
  kept :
    ∀ location node,
      files.get? location = some node →
        answer.files.get? location = some node
  added :
    ∀ location node,
      files.get? location = none →
        answer.files.get? location = some node →
          node = .directory ∧
            ∃ raw ∈ call.args,
              ∃ above ∈ Path.upward (call.resolve raw),
                answer.files.locate .follow above =
                  .ok (.found location .directory)
  made :
    ∀ text,
      answer.result = .ok text →
        ∀ raw ∈ call.args,
          answer.files.NamesDirectory (call.resolve raw)
  again :
    ∀ text,
      answer.result = .ok text →
        FileManagement.mkdir.run call answer.files =
          .plain answer.files none
  fails_iff :
    (∃ fault, answer.result = .error fault) ↔
      ∃ raw, call.IsFirstBlocked files raw
  named :
    ∀ raw,
      call.IsFirstBlocked files raw →
        ∃ cause,
          answer.result =
            .error (.atPath (call.resolve raw) cause)
  blocked_before :
    ∀ raw,
      call.IsFirstBlocked files raw →
        ∃ above ∈ Path.upward (call.resolve raw),
          files.IsBlocked above

namespace FileManagement

open FileSystem (makeDirectories)

variable
    {call : Call}
    {files : FileSystem}

/- A call makes its resolved arguments one by one. -/
theorem run_mkdir
    (call : Call)
    (files : FileSystem) :
    mkdir.run call files =
      changeEach makeDirectories
        (call.args.map call.resolve) files :=
  rfl

/- The call fails at the argument that is blocked first. -/
theorem run_mkdir_of_isFirstBlocked
    {raw : String}
    (hBlocked : call.IsFirstBlocked files raw) :
    ∃ cause,
      (mkdir.run call files).result =
        .error (.atPath (call.resolve raw) cause) := by
  rcases hBlocked with
    ⟨front, back, before, hArgs, hFront, above, hAbove,
      hHere⟩
  have hRow :
      changeEach makeDirectories (front.map call.resolve)
          files =
        .plain before none :=
    hFront
  have hFault :
      (before.makeDirectories (call.resolve raw)).fault ≠
        none := by
    intro hDone
    rw [FileSystem.fault_makeDirectories_iff
      (call.isPlain_resolve raw)] at hDone
    exact hDone above hAbove hHere
  rcases Option.ne_none_iff_exists'.1 hFault with
    ⟨cause, hCause⟩
  refine ⟨cause, ?_⟩
  rw [run_mkdir, hArgs, List.map_append, List.map_cons,
    changeEach_append hRow,
    changeEach_cons_of_fault hCause]
  rfl

/- A call succeeds, or one of its arguments is blocked. -/
theorem run_mkdir_cases
    (call : Call)
    (files : FileSystem) :
    (∃ after, mkdir.run call files = .plain after none) ∨
      ∃ raw, call.IsFirstBlocked files raw := by
  rcases changeEach_cases makeDirectories
      (call.args.map call.resolve) files with
    hDone |
    ⟨paths, path, rest, before, cause, hPaths, hFront,
      hFault⟩
  · exact Or.inl hDone
  · rcases List.map_eq_append_iff.1 hPaths with
      ⟨front, others, hArgs, rfl, hOthers⟩
    rcases List.map_eq_cons_iff.1 hOthers with
      ⟨raw, back, rfl, rfl, hRest⟩
    have hNotClear :
        ¬ before.IsClear (call.resolve raw) := by
      rw [← FileSystem.fault_makeDirectories_iff
        (call.isPlain_resolve raw)]
      intro hDone
      rw [hDone] at hFault
      cases hFault
    unfold FileSystem.IsClear at hNotClear
    rcases Classical.not_forall.1 hNotClear with
      ⟨above, hNot⟩
    rcases Classical.not_imp.1 hNot with ⟨hAbove, hHere⟩
    exact Or.inr
      ⟨raw, front, back, before, hArgs, hFront, above,
        hAbove, Classical.not_not.1 hHere⟩

/- A call that succeeds leaves directories, and no text. -/
theorem namesDirectory_of_run_mkdir
    {text : Option String}
    (hText : (mkdir.run call files).result = .ok text) :
    ∃ after,
      mkdir.run call files = .plain after none ∧
        ∀ path ∈ call.args.map call.resolve,
          after.NamesDirectory path := by
  rcases run_mkdir_cases call files with
    ⟨after, hAfter⟩ | ⟨raw, hBlocked⟩
  · refine ⟨after, hAfter, ?_⟩
    rw [run_mkdir] at hAfter
    exact namesDirectory_of_changeEach
      (fun path => call.isPlain_of_mem_map) hAfter
  · rcases run_mkdir_of_isFirstBlocked hBlocked with
      ⟨cause, hFault⟩
    rw [hText] at hFault
    cases hFault

/- Whatever a call leaves, it has added directories. -/
theorem addsTo_run_mkdir
    (call : Call)
    (files : FileSystem) :
    (mkdir.run call files).files.AddsTo files where
  keeps := by
    rw [run_mkdir]
    exact keeps_changeEach _ files
  directory := by
    intro location node hFree hNode
    rw [run_mkdir] at hNode
    exact (exists_locate_changeEach hFree hNode).1

/-
  Directories are all that is ever added, and only where
  they were asked for. It fails for the first argument that
  cannot become one, and that was so from the start.
-/
theorem mkdir_only_adds
    (call : Call)
    (files : FileSystem) :
    (mkdir.run call files).IsMaking call files where
  kept := (addsTo_run_mkdir call files).keeps
  added := by
    intro location node hFree hNode
    rw [run_mkdir] at hNode ⊢
    rcases exists_locate_changeEach hFree hNode with
      ⟨hDirectory, path, hPath, above, hAbove, hLocate⟩
    rcases List.mem_map.1 hPath with ⟨raw, hRaw, rfl⟩
    exact ⟨hDirectory, raw, hRaw, above, hAbove, hLocate⟩
  made := by
    intro text hText raw hRaw
    rcases namesDirectory_of_run_mkdir hText with
      ⟨after, hAfter, hThere⟩
    rw [hAfter]
    exact hThere _ (List.mem_map_of_mem hRaw)
  again := by
    intro text hText
    rcases namesDirectory_of_run_mkdir hText with
      ⟨after, hAfter, hThere⟩
    rw [hAfter, run_mkdir]
    exact changeEach_of_namesDirectory
      (fun path => call.isPlain_of_mem_map) hThere
  fails_iff := by
    constructor
    · rintro ⟨fault, hFault⟩
      rcases run_mkdir_cases call files with
        ⟨after, hAfter⟩ | hBlocked
      · rw [hAfter] at hFault
        cases hFault
      · exact hBlocked
    · rintro ⟨raw, hBlocked⟩
      rcases run_mkdir_of_isFirstBlocked hBlocked with
        ⟨cause, hFault⟩
      exact ⟨_, hFault⟩
  named := by
    intro raw hBlocked
    exact run_mkdir_of_isFirstBlocked hBlocked
  blocked_before := by
    rintro raw ⟨front, back, before, hArgs, hFront, hBlocked⟩
    apply Classical.byContradiction
    intro hNone
    have hAdds :=
      addsTo_run_mkdir { call with args := front } files
    rw [hFront] at hAdds
    have hClear : files.IsClear (call.resolve raw) := by
      intro above hAbove hHere
      exact hNone ⟨above, hAbove, hHere⟩
    rcases hBlocked with ⟨above, hAbove, hHere⟩
    exact hAdds.isClear (call.isPlain_resolve raw) hClear
      above hAbove hHere

end FileManagement

end LineShell

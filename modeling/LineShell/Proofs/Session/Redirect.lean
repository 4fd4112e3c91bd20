import LineShell.Command.Standard
import LineShell.Proofs.FileSystem.Writing
import LineShell.Proofs.Path.Normal
import LineShell.Proofs.Session.Stages

/-
  What a redirect does. It writes what the stages before it
  leave to the file that its target names where they end,
  and it leaves everything else as they left it.

  Key definitions include:
    * `Run.pathOf`
    * `Run.bytes`
    * `Run.IsRedirected`

  Correctness is proven by:
    * `Path.resolve_empty`
    * `Shell.isRedirected_write`
    * `Shell.redirect_writes_target`
-/

------------------------------------------------------------
-- Targets without a text
------------------------------------------------------------

namespace LineShell

namespace Path

theorem normalize_append_slash
    {path : String}
    (hPath : path ≠ "") :
    normalize (path ++ "/") = normalize path := by
  unfold normalize rootOf
  rw [components_append_slash, isAbsolute_append hPath]

/- Without a text a path is the directory it is read in. -/
theorem resolve_empty
    (directory : String) :
    resolve "" directory = normalize directory := by
  have hRelative : isAbsolute "" = false := rfl
  unfold resolve join
  rw [hRelative]
  by_cases hEmpty : directory = ""
  · simp [hEmpty]
  · by_cases hSlash :
        directory.toList.getLast? = some '/'
    · simp [hEmpty, hSlash]
    · simp [hEmpty, hSlash, normalize_append_slash]

end Path

end LineShell

------------------------------------------------------------
-- Redirected runs
------------------------------------------------------------

namespace LineShell

namespace Run

/- The path of a target in the directory where a run ends. -/
def pathOf
    (inner : Run)
    (target : Target) : String :=
  Path.resolve target.path inner.world.directories.current

/- The bytes of what a run leaves, if it leaves a text. -/
def bytes
    (inner : Run) : ByteArray :=
  match inner.outcome.output with
  | none => ByteArray.empty
  | some text => text.toByteArray

/-
  A run goes on where another one ends and writes what that
  one leaves to a target: to a file, to a free name, to the
  null device, or nowhere.
-/
structure IsRedirected
    (inner : Run)
    (target : Target)
    (run : Run) : Prop where
  directories_eq :
    run.world.directories = inner.world.directories
  to_file :
    ∀ location old,
      inner.world.files.locate .follow
            (inner.pathOf target) =
          .ok (.found location (.file old)) →
        inner.world.files.get? location =
            some (.file old) ∧
          run.outcome = .success none ∧
          run.world.files.IsWith inner.world.files location
            (.file
              (match target.mode with
              | .truncate => inner.bytes
              | .append => old ++ inner.bytes))
  to_vacant :
    ∀ directory name,
      inner.world.files.locate .follow
            (inner.pathOf target) =
          .ok (.vacant directory name) →
        inner.world.files.get? directory =
            some .directory ∧
          inner.world.files.get? (name :: directory) =
            none ∧
          run.outcome = .success none ∧
          run.world.files.IsWith inner.world.files
            (name :: directory) (.file inner.bytes)
  to_device :
    ∀ location,
      inner.world.files.locate .follow
            (inner.pathOf target) =
          .ok (.found location .nullDevice) →
        run.outcome = .success none ∧
          run.world = inner.world
  refused :
    inner.world.files.CannotOpen (inner.pathOf target) →
      run.outcome.status = .ioError ∧
        run.world = inner.world

end Run

namespace Run

theorem toByteArray_getD_output
    (inner : Run) :
    (inner.outcome.output.getD "").toByteArray =
      inner.bytes := by
  unfold bytes
  cases inner.outcome.output with
  | none => rfl
  | some text => rfl

/- What is recorded does not matter to a redirect. -/
theorem IsRedirected.after
    {inner run : Run}
    {target : Target}
    (hRun : inner.IsRedirected target run)
    (events : List Event) :
    inner.IsRedirected target (run.after events) := by
  constructor
  · exact hRun.directories_eq
  · exact hRun.to_file
  · exact hRun.to_vacant
  · exact hRun.to_device
  · exact hRun.refused

end Run

namespace Shell

variable
    {inner : Run}
    {target : Target}

/- A write that succeeds leaves the changed files. -/
theorem write_of_changed
    {changed : FileSystem}
    (hFile :
      inner.world.files.writeFile target.mode
          (inner.pathOf target) inner.bytes =
        .ok changed) :
    (write target.mode target.path inner.outcome.output
        inner.world).outcome = .success none ∧
      (write target.mode target.path inner.outcome.output
        inner.world).world =
          { inner.world with files := changed } := by
  rw [← Run.toByteArray_getD_output] at hFile
  rw [write_of_ok hFile]
  exact ⟨rfl, rfl⟩

/- A write that fails leaves everything as it was. -/
theorem write_of_refused
    {cause : FileError}
    (hFile :
      inner.world.files.writeFile target.mode
          (inner.pathOf target) inner.bytes =
        .error cause) :
    (write target.mode target.path inner.outcome.output
        inner.world).outcome.status = .ioError ∧
      (write target.mode target.path inner.outcome.output
        inner.world).world = inner.world := by
  rw [← Run.toByteArray_getD_output] at hFile
  rw [write_of_error hFile]
  exact ⟨rfl, rfl⟩

/- To write is to redirect. -/
theorem isRedirected_write
    (inner : Run)
    (target : Target) :
    inner.IsRedirected target
      (write target.mode target.path inner.outcome.output
        inner.world) := by
  constructor
  · cases hFile :
        inner.world.files.writeFile target.mode
          (inner.pathOf target) inner.bytes with
    | ok changed => rw [(write_of_changed hFile).2]
    | error cause => rw [(write_of_refused hFile).2]
  · intro location old hLocate
    rcases FileSystem.writeFile_of_file target.mode
        inner.bytes hLocate with
      ⟨changed, hFile, hWith⟩
    refine
      ⟨FileSystem.isIn_of_locate hLocate,
        (write_of_changed hFile).1, ?_⟩
    rw [(write_of_changed hFile).2]
    exact hWith
  · intro directory name hLocate
    rcases FileSystem.writeFile_of_vacant target.mode
        inner.bytes hLocate with
      ⟨changed, hFile, hWith⟩
    rcases FileSystem.isIn_of_locate hLocate with
      ⟨hDirectory, hFree⟩
    refine
      ⟨hDirectory, hFree, (write_of_changed hFile).1, ?_⟩
    rw [(write_of_changed hFile).2]
    exact hWith
  · intro location hLocate
    have hFile :=
      FileSystem.writeFile_of_device target.mode
        inner.bytes hLocate
    exact write_of_changed hFile
  · intro hOpen
    rcases FileSystem.writeFile_of_cannotOpen target.mode
        inner.bytes hOpen with
      ⟨cause, hFile⟩
    exact write_of_refused hFile

/-
  A line whose stages succeed is redirected to its target:
  the path of the target is read in the directory where the
  stages end, what they leave becomes the new content or is
  added to the old one, and nothing else changes. Where the
  path cannot be opened nothing changes at all. Either it
  can be written to, or it cannot be opened. It cannot
  without a text, where the current directory is there.
-/
theorem redirect_writes_target
    {shell : Shell}
    {line : String}
    {input : Option String}
    {world : World}
    {inner : Run}
    {target : Target}
    (hTarget : (Plan.ofLine line).target = some target)
    (hInner :
      shell.runStages shell.interactive
          (Plan.ofLine line).stages input world =
        inner)
    (hSuccess : inner.outcome.isSuccess = true) :
    inner.IsRedirected target
        (shell.evaluate line input world) ∧
      ((∃ spot,
        inner.world.files.locate .follow
            (inner.pathOf target) = .ok spot ∧
          spot.IsWritable) ∨
        inner.world.files.CannotOpen
          (inner.pathOf target)) ∧
      inner.world.files.Refusals (inner.pathOf target) ∧
      (target.path = "" →
        inner.world.files.isDirectoryAt
            (Path.normalize
              inner.world.directories.current) = true →
          inner.world.files.CannotOpen
            (inner.pathOf target)) := by
  have hRun :
      shell.evaluate line input world =
        (write target.mode target.path inner.outcome.output
          inner.world).after inner.events := by
    unfold evaluate
    rw [evaluateFor_of_cuts (Plan.cuts_ofLine line)]
    unfold runPlan
    rw [hInner, Run.andThen_of_isSuccess hSuccess, hTarget,
      finish_some]
  refine ⟨?_, ?_, ?_, ?_⟩
  · rw [hRun]
    exact (isRedirected_write inner target).after
      inner.events
  · exact FileSystem.locate_follow_cases inner.world.files
      (inner.pathOf target)
  · exact FileSystem.refusals inner.world.files
      (inner.pathOf target)
  · intro hEmpty hDirectory
    apply FileSystem.cannotOpen_of_isDirectoryAt
    unfold Run.pathOf
    rw [hEmpty, Path.resolve_empty]
    exact hDirectory

/- A directory that holds a file. -/
def filesWithNote : FileSystem where
  entries :=
    [([⟨"a", by decide⟩, ⟨"d", by decide⟩],
        .file "x".toByteArray),
      ([⟨"d", by decide⟩], .directory)]
  sound := by decide

/-
  Behind `cd` a target is taken from the new directory, and
  what `pwd` prints there is added to it.
-/
theorem text_is_appended_behind_cd :
    let shell : Shell :=
      ⟨Registry.standard Clock.unset Settings.standard, false⟩
    let run :=
      shell.evaluate "cd d|pwd>>a" none
        ⟨filesWithNote, ⟨"/", "/"⟩⟩
    (Plan.ofLine "cd d|pwd>>a").target =
        some ⟨.append, "a"⟩ ∧
      run.outcome = .success none ∧
      run.world.directories = ⟨"/d", "/"⟩ ∧
      run.world.files.IsWith filesWithNote
        [⟨"a", by decide⟩, ⟨"d", by decide⟩]
        (.file "x/d\n".toByteArray) := by
  intro shell run
  have hTarget :
      (Plan.ofLine "cd d|pwd>>a").target =
        some ⟨.append, "a"⟩ := by
    decide +kernel
  let inner :=
    shell.runStages false (Plan.ofLine "cd d|pwd>>a").stages
      none ⟨filesWithNote, ⟨"/", "/"⟩⟩
  have hSuccess : inner.outcome.isSuccess = true := by
    decide +kernel
  have hInner :
      shell.runStages shell.interactive
          (Plan.ofLine "cd d|pwd>>a").stages none
          ⟨filesWithNote, ⟨"/", "/"⟩⟩ =
        inner :=
    rfl
  have hRedirected :=
    (redirect_writes_target hTarget hInner hSuccess).1
  have hEntries :
      inner.world.files.entries = filesWithNote.entries := by
    decide +kernel
  have hFiles : inner.world.files = filesWithNote := by
    cases hLeft : inner.world.files
    rw [hLeft] at hEntries
    cases hEntries
    rfl
  have hPath : inner.pathOf ⟨.append, "a"⟩ = "/d/a" := by
    decide +kernel
  have hLocate :
      inner.world.files.locate .follow
          (inner.pathOf ⟨.append, "a"⟩) =
        .ok
          (.found [⟨"a", by decide⟩, ⟨"d", by decide⟩]
            (.file "x".toByteArray)) := by
    rw [hFiles, hPath]
    rfl
  have hDirectories :
      inner.world.directories = ⟨"/d", "/"⟩ := by
    decide +kernel
  have hBytes :
      "x".toByteArray ++ inner.bytes =
        "x/d\n".toByteArray := by
    decide +kernel
  rcases hRedirected.to_file _ _ hLocate with
    ⟨-, hOutcome, hWith⟩
  dsimp only at hWith
  rw [hFiles, hBytes] at hWith
  exact
    ⟨hTarget, hOutcome,
      hRedirected.directories_eq.trans hDirectories, hWith⟩

/-
  A target without a text is not refused where the current
  directory is missing: it becomes a file.
-/
theorem missing_directory_becomes_file :
    (Plan.ofLine ">").target = some ⟨.truncate, ""⟩ ∧
      ((⟨Registry.empty, false⟩ : Shell).runStages false
        (Plan.ofLine ">").stages none
        ⟨FileSystem.empty,
          ⟨"/gone", "/"⟩⟩).outcome.isSuccess = true ∧
      ((⟨Registry.empty, false⟩ : Shell).evaluate ">" none
          ⟨FileSystem.empty, ⟨"/gone", "/"⟩⟩).outcome =
        .success none ∧
      ((⟨Registry.empty, false⟩ : Shell).evaluate ">" none
          ⟨FileSystem.empty,
            ⟨"/gone", "/"⟩⟩).world.files.get?
          [⟨"gone", by decide⟩] =
        some (.file ByteArray.empty) := by
  decide +kernel

end Shell

end LineShell

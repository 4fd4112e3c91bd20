import LineShell.Proofs.FileSystem.Growing
import LineShell.Proofs.Session.Input
import LineShell.Proofs.Session.Redirect

/-
  Lines that only look. Nine of the standard commands never
  change a file, however they end. A line whose stages call
  no others leaves every file as it was, unless it ends in a
  redirect; that writes to one file at most, and only behind
  stages that all succeed.

  Key definitions include:
    * `Command.LeavesFiles`
    * `Command.lookers`
    * `Stage.OnlyLooks`
    * `Run.ChangesTargetAlone`

  Correctness is proven by:
    * `Registry.leavesFiles_standard`
    * `Shell.files_runStages`
    * `Shell.changesTargetAlone_evaluate`
    * `Shell.looking_leaves_files`
-/

------------------------------------------------------------
-- Commands that only look
------------------------------------------------------------

namespace LineShell

namespace Command

/-
  A command leaves the files as they are, whatever it is
  given and however it ends.
-/
def LeavesFiles
    (command : Command) : Prop :=
  ∀ (call : Call) (files : FileSystem),
    (command.run call files).files = files

/- The names of the standard commands that only look. -/
def lookers : List String :=
  ["pwd", "cd", "ls", "cat", "more", "args", "help",
    "date", "clear"]

end Command

/- A look changes nothing, so what follows it decides. -/
theorem Answer.files_looking
    {α : Type}
    {files : FileSystem}
    {path : String}
    {look : Except FileError α}
    {next : α → Answer}
    (hNext : ∀ value, (next value).files = files) :
    (looking files path look next).files = files := by
  cases look with
  | ok value => exact hNext value
  | error cause => rfl

namespace Navigation

theorem leavesFiles_cd :
    cd.LeavesFiles := by
  intro call files
  unfold cd
  dsimp only
  apply Answer.files_looking
  intro node
  split <;> rfl

theorem leavesFiles_ls :
    ls.LeavesFiles := by
  intro call files
  unfold ls
  dsimp only
  apply Answer.files_looking
  intro node
  split
  · apply Answer.files_looking
    intro entries
    split <;> rfl
  · rfl

end Navigation

theorem Guide.leavesFiles_help :
    help.LeavesFiles := by
  intro call files
  unfold help
  dsimp only
  split <;> rfl

theorem Date.leavesFiles_date
    (clock : Clock)
    (pattern : String) :
    (date clock pattern).LeavesFiles := by
  intro call files
  unfold date
  dsimp only
  split <;> rfl

/- The standard commands of these names leave the files. -/
theorem Registry.leavesFiles_standard
    {clock : Clock}
    {settings : Settings}
    {name : String}
    {command : Command}
    (hFind :
      (standard clock settings).find? name = some command)
    (hLooks : name ∈ Command.lookers) :
    command.LeavesFiles := by
  rcases (find?_standard_iff clock settings).1 hFind with
    ⟨hMem, rfl, hEnabled⟩
  have hLookers :
      (standardCommands clock settings).filter
          (·.name ∈ Command.lookers) =
        [Guide.args, Reading.cat, Navigation.cd,
          Guide.clear, Date.date clock settings.dateFormat,
          Guide.help, Navigation.ls,
          Reading.more settings.pageLines none,
          Navigation.pwd] :=
    rfl
  have hLooker :
      command ∈
        (standardCommands clock settings).filter
          (·.name ∈ Command.lookers) :=
    List.mem_filter.2 ⟨hMem, decide_eq_true hLooks⟩
  rw [hLookers] at hLooker
  simp only [List.mem_cons, List.not_mem_nil, or_false]
    at hLooker
  rcases hLooker with rfl | rfl | rfl | rfl | rfl | rfl |
    rfl | rfl | rfl
  · intro call files
    rfl
  · intro call files
    rfl
  · exact Navigation.leavesFiles_cd
  · intro call files
    rfl
  · exact Date.leavesFiles_date clock settings.dateFormat
  · exact Guide.leavesFiles_help
  · exact Navigation.leavesFiles_ls
  · intro call files
    rfl
  · intro call files
    rfl

end LineShell

------------------------------------------------------------
-- Stages that only look
------------------------------------------------------------

namespace LineShell

/-
  A stage only looks: it is blank, it leaves a quote open,
  its first word is not registered, or it names one of the
  commands that only look.
-/
inductive Stage.OnlyLooks
    (registry : Registry)
    (stage : Stage) : Prop
  | blank
      (hBlank : stage.HasWords [])
  | unclosed
      {fault : UnclosedQuote}
      (hScan : Scan.ofLine stage.text = .error fault)
  | unregistered
      {name : String}
      {args : List String}
      (hWords : stage.HasWords (name :: args))
      (hUnknown : registry.contains name = false)
  | looks
      {name : String}
      {args : List String}
      (hWords : stage.HasWords (name :: args))
      (hLooks : name ∈ Command.lookers)

namespace Shell

variable
    {shell : Shell}

/- A shell calls no command but such as leave the files. -/
def CallsOnlyLookers
    (shell : Shell)
    (stage : Stage) : Prop :=
  ∀ command name args,
    shell.demand stage.text = .call command name args →
      command.LeavesFiles

/- Where stages only look, only such commands are called. -/
theorem callsOnlyLookers_of_onlyLooks
    {clock : Clock}
    {settings : Settings}
    (hStandard :
      shell.registry = Registry.standard clock settings)
    {stage : Stage}
    (hStage : stage.OnlyLooks shell.registry) :
    shell.CallsOnlyLookers stage := by
  intro command name args hDemand
  rcases exists_scan_of_demand_eq_call hDemand with
    ⟨scan, hScan, hCalled⟩
  have hFind := (find?_of_demand_eq_call hDemand).1
  have hSame :
      ∀ words,
        stage.HasWords words → words = name :: args := by
    rintro words ⟨other, hOther, rfl⟩
    rw [hScan, Except.ok.injEq] at hOther
    rw [← hOther, hCalled]
  cases hStage with
  | blank hBlank => cases hSame [] hBlank
  | unclosed hOpen =>
      rw [hOpen] at hScan
      cases hScan
  | unregistered hWords hUnknown =>
      cases hSame _ hWords
      simp [Registry.contains, hFind] at hUnknown
  | looks hWords hLooks =>
      cases hSame _ hWords
      rw [hStandard] at hFind
      exact Registry.leavesFiles_standard hFind hLooks

/- A command that leaves the files does so when entered. -/
theorem files_enter
    {command : Command}
    (hLeaves : command.LeavesFiles)
    (args : List String)
    (input : Option String)
    (toUser : Bool)
    (world : World) :
    (shell.enter command args input toUser
        world).world.files =
      world.files := by
  unfold enter
  dsimp only
  split
  · exact hLeaves _ _
  · exact hLeaves _ _

theorem files_runStage
    {stage : Stage}
    (hStage : shell.CallsOnlyLookers stage)
    (toUser : Bool)
    (input : Option String)
    (world : World) :
    (shell.runStage toUser stage input
        world).world.files =
      world.files := by
  rw [runStage, Run.world_after]
  unfold runText
  cases hDemand : shell.demand stage.text with
  | unclosed fault => rfl
  | nothing => rfl
  | unknown name => rfl
  | miscounted command name args => rfl
  | call command name args =>
      have hLeaves := hStage command name args hDemand
      exact files_enter hLeaves args input _ world

/- Stages that only look leave the files, to their end. -/
theorem files_runStages
    {stages : List Stage}
    (hStages :
      ∀ stage ∈ stages, shell.CallsOnlyLookers stage)
    (toUser : Bool)
    (input : Option String)
    (world : World) :
    (shell.runStages toUser stages input
        world).world.files =
      world.files := by
  induction stages generalizing input world with
  | nil => rfl
  | cons stage rest ih =>
      rcases List.forall_mem_cons.1 hStages with
        ⟨hStage, hRest⟩
      have hStep := files_runStage hStage toUser input world
      rw [runStages]
      cases hSuccess :
          (shell.runStage toUser stage input
            world).outcome.isSuccess with
      | false =>
          rw [Run.andThen_of_not_isSuccess hSuccess, hStep]
      | true =>
          rw [Run.andThen_of_isSuccess hSuccess,
            Run.world_after, ih hRest, hStep]

end Shell

end LineShell

------------------------------------------------------------
-- Lines that only look
------------------------------------------------------------

namespace LineShell

/-
  A run goes on where the stages of a line end, and of the
  files that were there before the stages it changes the one
  to which the target leads, at most: no file without a
  target, and none after a failure.
-/
structure Run.ChangesTargetAlone
    (run inner : Run)
    (target : Option Target)
    (files : FileSystem) : Prop where
  stages_leave : inner.world.files = files
  no_target : target = none → run.world.files = files
  after_failure :
    inner.outcome.isSuccess = false →
      run.world.files = files
  at_target :
    ∀ goal,
      target = some goal →
        run.world.files = files ∨
          ∃ spot old,
            files.locate .follow (inner.pathOf goal) =
                .ok spot ∧
              spot.content? = some old ∧
              run.world.files.IsWith files spot.location
                (.file
                  (FileSystem.writtenContent goal.mode old
                    inner.bytes))

namespace Shell

variable
    {shell : Shell}

/- A write changes the file of its target, or nothing. -/
theorem files_write
    (inner : Run)
    (target : Target) :
    let run :=
      write target.mode target.path inner.outcome.output
        inner.world
    run.world.files = inner.world.files ∨
      ∃ spot old,
        inner.world.files.locate .follow
              (inner.pathOf target) =
            .ok spot ∧
          spot.content? = some old ∧
          run.world.files.IsWith inner.world.files
            spot.location
            (.file
              (FileSystem.writtenContent target.mode old
                inner.bytes)) := by
  intro run
  cases hFile :
      inner.world.files.writeFile target.mode
        (inner.pathOf target) inner.bytes with
  | error cause =>
      have hWorld : run.world = inner.world :=
        (write_of_refused hFile).2
      exact Or.inl (congrArg World.files hWorld)
  | ok changed =>
      have hWorld :
          run.world = { inner.world with files := changed } :=
        (write_of_changed hFile).2
      rw [hWorld]
      exact FileSystem.isWith_of_writeFile hFile

/-
  A line changes the file of its target alone where none of
  its stages calls a command that changes files.
-/
theorem changesTargetAlone_evaluate
    {line : String}
    (hStages :
      ∀ stage ∈ (Plan.ofLine line).stages,
        shell.CallsOnlyLookers stage)
    (input : Option String)
    (world : World) :
    (shell.evaluate line input world).ChangesTargetAlone
      (shell.runStages shell.interactive
        (Plan.ofLine line).stages input world)
      (Plan.ofLine line).target world.files := by
  have hInner :=
    files_runStages hStages shell.interactive input world
  have hRun :
      shell.evaluate line input world =
        (shell.runStages shell.interactive
          (Plan.ofLine line).stages input world).andThen
          (finish (Plan.ofLine line).target) :=
    evaluateFor_of_cuts (Plan.cuts_ofLine line) input
      shell.interactive world
  generalize
    shell.runStages shell.interactive
        (Plan.ofLine line).stages input world =
      inner at hInner hRun ⊢
  generalize (Plan.ofLine line).target = target
    at hRun ⊢
  rw [hRun, ← hInner]
  constructor
  · rfl
  · rintro rfl
    rw [finish_none, Run.andThen_success]
  · intro hFailure
    rw [Run.andThen_of_not_isSuccess hFailure]
  · rintro goal rfl
    cases hSuccess : inner.outcome.isSuccess with
    | false =>
        rw [Run.andThen_of_not_isSuccess hSuccess]
        exact Or.inl rfl
    | true =>
        rw [Run.andThen_of_isSuccess hSuccess,
          Run.world_after, finish_some]
        exact files_write inner goal

/-
  A line of a standard shell that only looks leaves the whole
  file system as it was. With a redirect at its end it may
  change the one file to which the target leads, and not even
  that unless every stage succeeds.
-/
theorem looking_leaves_files
    (clock : Clock)
    (settings : Settings)
    (interactive : Bool)
    {line : String}
    (hLooks :
      ∀ stage ∈ (Plan.ofLine line).stages,
        stage.OnlyLooks (Registry.standard clock settings))
    (input : Option String)
    (world : World) :
    let shell : Shell :=
      ⟨Registry.standard clock settings, interactive⟩
    (shell.evaluate line input world).ChangesTargetAlone
      (shell.runStages interactive (Plan.ofLine line).stages
        input world)
      (Plan.ofLine line).target world.files := by
  intro shell
  apply changesTargetAlone_evaluate
  intro stage hMem
  exact callsOnlyLookers_of_onlyLooks rfl
    (hLooks stage hMem)

/-
  A command that removes stands between quotes and another
  one behind a redirect: neither of them is called.
-/
theorem quoted_removal_leaves_files :
    let registry :=
      Registry.standard Clock.unset Settings.standard
    let shell : Shell := ⟨registry, true⟩
    let world : World := ⟨FileSystem.empty, ⟨"/", "/"⟩⟩
    let line := "'pwd' |cat 'a|rm b'|rmdirs>c|rm d"
    (∀ stage ∈ (Plan.ofLine line).stages,
        stage.OnlyLooks registry) ∧
      (Plan.ofLine line).target =
        some ⟨.truncate, "c|rm d"⟩ ∧
      (shell.evaluate line none world).world.files =
        world.files := by
  intro registry shell world line
  have hPlan :
      Plan.ofLine line =
        ⟨[⟨"'pwd' ", some (line, .pipeline)⟩,
          ⟨"cat 'a|rm b'",
            some ("cat 'a|rm b'|rmdirs>c|rm d",
              .pipeline)⟩,
          ⟨"rmdirs",
            some ("rmdirs>c|rm d",
              .redirect .truncate)⟩],
          some ⟨.truncate, "c|rm d"⟩⟩ := by
    decide +kernel
  have hPwd :
      Scan.ofLine "'pwd' " = .ok ⟨["pwd"], none⟩ := by
    rfl
  have hCat :
      Scan.ofLine "cat 'a|rm b'" =
        .ok ⟨["cat", "a|rm b"], none⟩ := by
    rfl
  have hRmdirs :
      Scan.ofLine "rmdirs" = .ok ⟨["rmdirs"], none⟩ := by
    rfl
  have hLooks :
      ∀ stage ∈ (Plan.ofLine line).stages,
        stage.OnlyLooks registry := by
    rw [hPlan]
    intro stage hMem
    simp only [List.mem_cons, List.not_mem_nil, or_false]
      at hMem
    rcases hMem with rfl | rfl | rfl
    · exact .looks ⟨⟨["pwd"], none⟩, hPwd, rfl⟩ (by decide)
    · exact .looks ⟨⟨["cat", "a|rm b"], none⟩, hCat, rfl⟩
        (by decide)
    · exact .unregistered
        ⟨⟨["rmdirs"], none⟩, hRmdirs, rfl⟩ (by decide +kernel)
  have hLeaves :=
    looking_leaves_files Clock.unset Settings.standard true
      hLooks none world
  refine ⟨hLooks, by rw [hPlan], ?_⟩
  apply hLeaves.after_failure
  rw [hPlan]
  decide +kernel

end Shell

end LineShell

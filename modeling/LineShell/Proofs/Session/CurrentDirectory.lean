import LineShell.Proofs.Command.Standard
import LineShell.Proofs.FileSystem.Writing
import LineShell.Proofs.Path.Normal
import LineShell.Proofs.Session.Status
import LineShell.Session.Terminal

/-
  Where a session stands. Only `cd` changes the current
  directory, and only to a directory that is there; what it
  changes it to is a normal path, whatever lines came before,
  and the way home never changes.

  Key definitions include:
    * `Directories.IsSettled`
    * `Turn.destination`
    * `Turn.ChangesDirectory`
    * `Terminal.IsOriented`

  Correctness is proven by:
    * `Turn.changesDirectory`
    * `Shell.isSettled_runStages`
    * `Terminal.isOriented_after_lines`
-/

------------------------------------------------------------
-- Directories
------------------------------------------------------------

namespace LineShell

/- The directories of a session that started at home. -/
structure Directories.IsSettled
    (home : String)
    (directories : Directories) : Prop where
  current_normal : Path.IsNormal directories.current
  current_fixed :
    Path.normalize directories.current =
      directories.current
  home_eq : directories.home = home

/- Normal paths leave a session settled. -/
theorem Directories.isSettled_of_isNormal
    {current : String}
    (hCurrent : Path.IsNormal current)
    (home : String) :
    IsSettled home ⟨current, home⟩ :=
  ⟨hCurrent, Path.normalize_of_isNormal hCurrent, rfl⟩

end LineShell

------------------------------------------------------------
-- What `cd` does
------------------------------------------------------------

namespace LineShell

namespace Navigation

variable
    {call : Call}
    {files : FileSystem}
    {path : String}
    (hPath :
      call.resolve (call.args.headD call.directories.home) =
        path)

include hPath

/- A directory that is there is where `cd` asks to go. -/
theorem run_cd_of_namesDirectory
    (hThere : files.NamesDirectory path) :
    cd.run call files = ⟨files, [path], .ok none⟩ := by
  have hNode := FileSystem.nodeAt_directory_iff.2 hThere
  unfold cd
  dsimp only
  rw [hPath, hNode]
  rfl

/- Anything else is a fault at its path. -/
theorem run_cd_of_not_namesDirectory
    (hNone : ¬ files.NamesDirectory path) :
    ∃ cause,
      cd.run call files =
        Answer.fail files (.atPath path cause) := by
  rw [← FileSystem.nodeAt_directory_iff] at hNone
  unfold cd
  dsimp only
  rw [hPath]
  cases hNode : files.nodeAt path with
  | error cause => exact ⟨cause, rfl⟩
  | ok node =>
      cases node with
      | directory => exact absurd hNode hNone
      | file content => exact ⟨.notADirectory path, rfl⟩
      | link target => exact ⟨.notADirectory path, rfl⟩
      | nullDevice => exact ⟨.notADirectory path, rfl⟩

end Navigation

namespace Shell

variable
    {shell : Shell}
    {command : Command}
    {args : List String}
    {input : Option String}
    {toUser : Bool}
    {world : World}

theorem enter_of_ok
    {files : FileSystem}
    {requested : List String}
    {output : Option String}
    (hAnswer :
      shell.answer command args input toUser world =
        ⟨files, requested, .ok output⟩) :
    shell.enter command args input toUser world =
      ⟨.success output,
        ⟨files,
          (applyMove command.signature requested
            world.directories).1⟩,
        (applyMove command.signature requested
          world.directories).2⟩ := by
  unfold answer at hAnswer
  unfold enter
  dsimp only
  rw [hAnswer]

theorem enter_of_error
    {files : FileSystem}
    {requested : List String}
    {fault : Fault}
    (hAnswer :
      shell.answer command args input toUser world =
        ⟨files, requested, .error fault⟩) :
    shell.enter command args input toUser world =
      ⟨.failure fault.status fault.message,
        ⟨files, world.directories⟩,
        [.commandFailed command.name fault]⟩ := by
  unfold answer at hAnswer
  unfold enter
  dsimp only
  rw [hAnswer]

/-
  Who may not change the directory leaves the directories as
  they are.
-/
theorem directories_enter
    (hStays : command.signature.changesDirectory = false) :
    (shell.enter command args input toUser
        world).world.directories =
      world.directories := by
  cases hAnswer :
      shell.answer command args input toUser world with
  | mk files requested result =>
      cases result with
      | ok output =>
          rw [enter_of_ok hAnswer]
          unfold applyMove
          rw [hStays]
          cases requested.getLast? <;> rfl
      | error fault => rw [enter_of_error hAnswer]

/- `cd` goes to a directory that is there, or it fails. -/
theorem enter_cd
    {path : String}
    (hPath :
      world.directories.resolve
          (args.headD world.directories.home) =
        path) :
    (world.files.NamesDirectory path ∧
      shell.enter Navigation.cd args input toUser world =
        ⟨.success none,
          { world with
            directories :=
              { world.directories with current := path } },
          [.moved world.directories.current path]⟩) ∨
      (¬ world.files.NamesDirectory path ∧
        ∃ fault : Fault,
          shell.enter Navigation.cd args input toUser
              world =
            ⟨.failure fault.status fault.message, world,
              [.commandFailed "cd" fault]⟩) := by
  by_cases hThere : world.files.NamesDirectory path
  · have hAnswer :
        shell.answer Navigation.cd args input toUser
            world =
          ⟨world.files, [path], .ok none⟩ :=
      Navigation.run_cd_of_namesDirectory hPath hThere
    exact Or.inl ⟨hThere, enter_of_ok hAnswer⟩
  · have hFault :
        ∃ cause,
          shell.answer Navigation.cd args input toUser
              world =
            Answer.fail world.files (.atPath path cause) :=
      Navigation.run_cd_of_not_namesDirectory hPath hThere
    rcases hFault with ⟨cause, hAnswer⟩
    exact Or.inr ⟨hThere, _, enter_of_error hAnswer⟩

/-
  Whatever is entered, the session stays settled: the only
  command that goes anywhere asks for a resolved path.
-/
theorem isSettled_enter
    (hMoves : shell.registry.OnlyCdMoves)
    {name home : String}
    (hFind : shell.registry.find? name = some command)
    (hSettled : world.directories.IsSettled home) :
    (shell.enter command args input toUser
      world).world.directories.IsSettled home := by
  cases hMoving : command.signature.changesDirectory with
  | false =>
      rw [directories_enter hMoving]
      exact hSettled
  | true =>
      obtain rfl := hMoves.moving name command hFind hMoving
      rcases enter_cd rfl with
        ⟨hThere, hEnter⟩ | ⟨hNone, fault, hEnter⟩
      · rw [hEnter, ← hSettled.home_eq]
        exact Directories.isSettled_of_isNormal
          (Path.isNormal_resolve hSettled.current_normal _) _
      · rw [hEnter]
        exact hSettled

end Shell

end LineShell

------------------------------------------------------------
-- Turns of `cd`
------------------------------------------------------------

namespace LineShell

namespace Turn

/-
  Where `cd` leads in a turn: home without an argument, and
  else to the path that the argument means.
-/
def destination
    (home : String)
    (args : List String)
    (turn : Turn) : String :=
  match args with
  | [] => home
  | raw :: _ =>
    Path.resolve raw turn.world.directories.current

/-
  A turn of `cd` succeeds exactly when the command is there,
  it has at most one argument, and its destination is a
  directory in that moment. The destination is then the
  current directory, and nothing else has changed. If the
  turn fails, nothing at all has.
-/
structure ChangesDirectory
    (shell : Shell)
    (toUser : Bool)
    (home : String)
    (args : List String)
    (turn : Turn) : Prop where
  isSuccess_iff :
    (turn.run shell toUser).outcome.isSuccess = true ↔
      shell.registry.contains "cd" = true ∧
        args.length ≤ 1 ∧
          turn.world.files.NamesDirectory
            (turn.destination home args)
  world_of_success :
    (turn.run shell toUser).outcome.isSuccess = true →
      (turn.run shell toUser).world =
        { turn.world with
          directories :=
            ⟨turn.destination home args, home⟩ }
  world_of_failure :
    (turn.run shell toUser).outcome.isSuccess = false →
      (turn.run shell toUser).world = turn.world

variable
    {shell : Shell}
    {toUser : Bool}
    {turn : Turn}
    {home : String}
    {args : List String}

theorem changesDirectory_of_failure
    (hNot :
      ¬ (shell.registry.contains "cd" = true ∧
        args.length ≤ 1 ∧
          turn.world.files.NamesDirectory
            (turn.destination home args)))
    (hFailure :
      (turn.run shell toUser).outcome.isSuccess = false)
    (hWorld : (turn.run shell toUser).world = turn.world) :
    turn.ChangesDirectory shell toUser home args := by
  constructor
  · rw [hFailure]
    simp only [Bool.false_eq_true, false_iff]
    exact hNot
  · intro hSuccess
    rw [hFailure] at hSuccess
    cases hSuccess
  · intro _
    exact hWorld

theorem changesDirectory_of_success
    (hAll :
      shell.registry.contains "cd" = true ∧
        args.length ≤ 1 ∧
          turn.world.files.NamesDirectory
            (turn.destination home args))
    (hSuccess :
      (turn.run shell toUser).outcome.isSuccess = true)
    (hWorld :
      (turn.run shell toUser).world =
        { turn.world with
          directories :=
            ⟨turn.destination home args, home⟩ }) :
    turn.ChangesDirectory shell toUser home args := by
  constructor
  · exact iff_of_true hSuccess hAll
  · intro _
    exact hWorld
  · intro hFailure
    rw [hSuccess] at hFailure
    cases hFailure

/- In a settled session `cd` means the destination. -/
theorem resolve_eq_destination
    (hHome : Path.IsNormal home)
    (hSettled : turn.world.directories.IsSettled home)
    (args : List String) :
    turn.world.directories.resolve
        (args.headD turn.world.directories.home) =
      turn.destination home args := by
  unfold Directories.resolve destination
  cases args with
  | nil =>
      rw [hSettled.home_eq]
      exact Path.resolve_of_isNormal hHome _
  | cons raw rest => rfl

theorem accepts_cd_iff :
    Navigation.cd.signature.accepts args.length = true ↔
      args.length ≤ 1 := by
  simp [Navigation.cd, Signature.accepts]

/- A turn that enters `cd` changes the directory. -/
theorem changesDirectory_of_accepts
    (hHome : Path.IsNormal home)
    (hSettled : turn.world.directories.IsSettled home)
    (hReads : turn.Reads ("cd" :: args))
    (hFind : shell.registry.find? "cd" = some Navigation.cd)
    (hCount : args.length ≤ 1) :
    turn.ChangesDirectory shell toUser home args := by
  have hRun :=
    run_of_accepts toUser hReads hFind
      (accepts_cd_iff.2 hCount)
  have hPath := resolve_eq_destination hHome hSettled args
  rcases Shell.enter_cd hPath with
    ⟨hThere, hEnter⟩ | ⟨hNone, fault, hEnter⟩
  · rw [hEnter] at hRun
    apply changesDirectory_of_success
    · exact ⟨by simp [Registry.contains, hFind], hCount,
        hThere⟩
    · rw [hRun]
      rfl
    · rw [hRun, ← hSettled.home_eq]
      rfl
  · rw [hEnter] at hRun
    apply changesDirectory_of_failure
    · rintro ⟨hContains, hAtMost, hNamed⟩
      exact hNone hNamed
    · rw [hRun, Run.outcome_after]
      cases fault <;> rfl
    · rw [hRun]
      rfl

/- What a turn of `cd` does in a settled session. -/
theorem changesDirectory
    (hMoves : shell.registry.OnlyCdMoves)
    (hHome : Path.IsNormal home)
    (hSettled : turn.world.directories.IsSettled home)
    (hReads : turn.Reads ("cd" :: args)) :
    turn.ChangesDirectory shell toUser home args := by
  cases hFind : shell.registry.find? "cd" with
  | none =>
      rcases run_of_isUnregistered ⟨"cd", args, hReads, hFind⟩
        with ⟨message, hRun⟩
      apply changesDirectory_of_failure
      · rintro ⟨hContains, hRest⟩
        simp [Registry.contains, hFind] at hContains
      · rw [hRun]
        rfl
      · rw [hRun]
        rfl
  | some command =>
      obtain rfl := hMoves.named command hFind
      by_cases hCount : args.length ≤ 1
      · exact changesDirectory_of_accepts hHome hSettled
          hReads hFind hCount
      · have hBounds :
            Navigation.cd.signature.IsOutOfBounds
              args.length := by
          rw [← Signature.accepts_eq_false_iff,
            ← Bool.not_eq_true, accepts_cd_iff]
          exact hCount
        rcases run_of_isMiscounted
            ⟨"cd", args, _, hReads, hFind, hBounds⟩ with
          ⟨message, hRun⟩
        apply changesDirectory_of_failure
        · rintro ⟨hContains, hAtMost, hRest⟩
          exact hCount hAtMost
        · rw [hRun]
          rfl
        · rw [hRun]
          rfl

/- A turn leaves a settled session settled. -/
theorem isSettled_run
    (hMoves : shell.registry.OnlyCdMoves)
    (hSettled : turn.world.directories.IsSettled home) :
    (turn.run shell toUser).world.directories.IsSettled
      home := by
  rw [run, Shell.runStage, Run.world_after]
  unfold Shell.runText
  cases hDemand : shell.demand turn.stage.text with
  | unclosed fault => exact hSettled
  | nothing => exact hSettled
  | unknown name => exact hSettled
  | miscounted command name args => exact hSettled
  | call command name args =>
      rcases Shell.find?_of_demand_eq_call hDemand with
        ⟨hFind, hAccepts⟩
      exact Shell.isSettled_enter hMoves hFind hSettled

end Turn

end LineShell

------------------------------------------------------------
-- Stages and lines
------------------------------------------------------------

namespace LineShell

namespace Shell

variable
    {shell : Shell}
    {home : String}

/-
  A settled session is settled in every turn and at the end
  of the stages.
-/
theorem isSettled_runStages
    (hMoves : shell.registry.OnlyCdMoves)
    (toUser : Bool)
    (stages : List Stage)
    (input : Option String)
    {world : World}
    (hSettled : world.directories.IsSettled home) :
    (∀ turn ∈ shell.turns toUser stages input world,
      turn.world.directories.IsSettled home) ∧
      (shell.runStages toUser stages input
        world).world.directories.IsSettled home := by
  induction stages generalizing input world with
  | nil =>
      refine ⟨?_, hSettled⟩
      intro turn hMem
      cases hMem
  | cons stage rest ih =>
      have hStep :
          (Turn.run shell toUser
            ⟨stage, input, world⟩).world.directories.IsSettled
            home :=
        Turn.isSettled_run hMoves hSettled
      cases hSuccess :
          (shell.runStage toUser stage input
            world).outcome.isSuccess with
      | false =>
          rw [turns_of_not_isSuccess _ _ hSuccess, runStages,
            Run.andThen_of_not_isSuccess hSuccess]
          refine ⟨?_, hStep⟩
          intro turn hMem
          rw [List.mem_singleton.1 hMem]
          exact hSettled
      | true =>
          rcases ih
              (shell.runStage toUser stage input
                world).outcome.output hStep with
            ⟨hTurns, hEnd⟩
          rw [turns_of_isSuccess _ _ hSuccess, runStages,
            Run.andThen_of_isSuccess hSuccess]
          refine ⟨?_, hEnd⟩
          intro turn hMem
          rcases List.mem_cons.1 hMem with rfl | hMem
          · exact hSettled
          · exact hTurns turn hMem

/- A redirect changes no directories. -/
theorem directories_finish
    (target : Option Target)
    (output : Option String)
    (world : World) :
    (finish target output world).world.directories =
      world.directories := by
  cases target with
  | none => rfl
  | some target =>
      rw [finish_some]
      unfold write
      dsimp only
      split <;> rfl

/- A line leaves the directories that its stages leave. -/
theorem directories_evaluate
    (shell : Shell)
    (line : String)
    (input : Option String)
    (world : World) :
    (shell.evaluate line input world).world.directories =
      (shell.runStages shell.interactive
        (Plan.ofLine line).stages input
        world).world.directories := by
  unfold evaluate
  rw [evaluateFor_of_cuts (Plan.cuts_ofLine line)]
  unfold runPlan
  cases hSuccess :
      (shell.runStages shell.interactive
        (Plan.ofLine line).stages input
        world).outcome.isSuccess with
  | false => rw [Run.andThen_of_not_isSuccess hSuccess]
  | true =>
      rw [Run.andThen_of_isSuccess hSuccess, Run.world_after,
        directories_finish]

end Shell

namespace Terminal

/- The turns that a line has in a terminal. -/
def turns
    (terminal : Terminal)
    (line : String) : List Turn :=
  terminal.shell.turns terminal.shell.interactive
    (Plan.ofLine line).stages none terminal.world

/-
  A terminal is settled before a line and after it. In
  between, its directories are changed by the turns of the
  line alone: each turn of `cd` goes where it says, or it
  fails and goes nowhere, and the directories after the line
  are those after its last turn.
-/
structure IsOriented
    (home line : String)
    (terminal : Terminal) : Prop where
  before : terminal.world.directories.IsSettled home
  turns_settled :
    ∀ turn ∈ terminal.turns line,
      turn.world.directories.IsSettled home
  changes :
    ∀ turn ∈ terminal.turns line,
      ∀ args,
        turn.Reads ("cd" :: args) →
          turn.ChangesDirectory terminal.shell
            terminal.shell.interactive home args
  last :
    ∃ front turn,
      terminal.shell.IsLastTurn terminal.shell.interactive
          (Plan.ofLine line).stages none terminal.world front
          turn ∧
        (terminal.after line).world.directories =
          (turn.run terminal.shell
            terminal.shell.interactive).world.directories
  after :
    (terminal.after line).world.directories.IsSettled home

variable
    {terminal : Terminal}
    {home : String}

/- A line keeps a settled terminal oriented. -/
theorem isOriented
    (hMoves : terminal.shell.registry.OnlyCdMoves)
    (hHome : Path.IsNormal home)
    (hSettled : terminal.world.directories.IsSettled home)
    (line : String) :
    terminal.IsOriented home line := by
  have hStages :=
    Shell.isSettled_runStages hMoves
      terminal.shell.interactive (Plan.ofLine line).stages
      none hSettled
  have hAfter :
      (terminal.after line).world.directories =
        (terminal.shell.runStages terminal.shell.interactive
          (Plan.ofLine line).stages none
          terminal.world).world.directories :=
    Shell.directories_evaluate terminal.shell line none
      terminal.world
  rcases Shell.exists_isLastTurn terminal.shell
      terminal.shell.interactive (Plan.stages_ne_nil line)
      none terminal.world with
    ⟨front, turn, hLast⟩
  constructor
  · exact hSettled
  · exact hStages.1
  · intro turn hTurn args hReads
    exact Turn.changesDirectory hMoves hHome
      (hStages.1 turn hTurn) hReads
  · refine ⟨front, turn, hLast, ?_⟩
    rw [hAfter, hLast.world_eq]
  · rw [hAfter]
    exact hStages.2

/-
  Lines keep a terminal settled that starts in an absolute
  directory, and every further line is oriented.
-/
theorem isOriented_after_lines
    (clock : Clock)
    (settings : Settings)
    (interactive : Bool)
    {directory : String}
    (hAbsolute : Path.isAbsolute directory = true)
    (files : FileSystem)
    (lines : List String)
    (line : String) :
    (lines.foldl Terminal.after
      (start clock settings interactive directory
        files)).IsOriented (Path.normalize directory)
      line := by
  have hHome := Path.isNormal_normalize hAbsolute
  -- No line changes the registry, but each one may change the
  -- directories: the induction is over settled terminals.
  have hLines :
      ∀ terminal : Terminal,
        terminal.shell.registry.OnlyCdMoves →
          terminal.world.directories.IsSettled
              (Path.normalize directory) →
            (lines.foldl Terminal.after
              terminal).IsOriented (Path.normalize directory)
              line := by
    induction lines with
    | nil =>
        intro terminal hMoves hSettled
        exact isOriented hMoves hHome hSettled line
    | cons first rest ih =>
        intro terminal hMoves hSettled
        exact ih _ hMoves
          (isOriented hMoves hHome hSettled first).after
  exact hLines _
    (Registry.onlyCdMoves_standard clock settings)
    (Directories.isSettled_of_isNormal hHome _)

/- A terminal that wandered off is oriented still. -/
theorem isOriented_below_home :
    Path.isAbsolute "/b//x/.." = true ∧
      (["mkdir /b/c", "cd c | pwd"].foldl Terminal.after
        (start Clock.unset Settings.standard false
          "/b//x/.." FileSystem.empty)).IsOriented
        (Path.normalize "/b//x/..") "cd > ../d" ∧
      (["mkdir /b/c", "cd c | pwd"].foldl Terminal.after
          (start Clock.unset Settings.standard false
            "/b//x/.." FileSystem.empty)).world.directories =
        ⟨"/b/c", "/b"⟩ := by
  have hAbsolute : Path.isAbsolute "/b//x/.." = true := by
    decide
  refine ⟨hAbsolute, ?_, by decide +kernel⟩
  exact isOriented_after_lines Clock.unset Settings.standard
    false hAbsolute FileSystem.empty _ _

end Terminal

end LineShell

import LineShell.Proofs.Command.Standard
import LineShell.Proofs.Line.Offsets
import LineShell.Proofs.Session.Status
import LineShell.Proofs.Text.Pages
import LineShell.Session.Terminal

/-
  Sessions whose steps may be out of range. A text is cut at
  an offset, an argument is read at a position, and a command
  is looked up under a name that was registered before: each
  of these steps could fail. In a session of a standard shell
  none of them does.

  Key definitions include:
    * `Command.positionsOf`
    * `Command.ReadsOnly`
    * `Registry.HasEnough`
    * `Shell.evaluateFor?`
    * `Terminal.runLines?`

  Correctness is proven by:
    * `Registry.hasEnough_standard`
    * `Shell.evaluateFor?_eq`
    * `Terminal.lines_stay_in_range`
-/

------------------------------------------------------------
-- Steps that may fail
------------------------------------------------------------

namespace LineShell

/- A call with other arguments. -/
def Call.withArgs
    (call : Call)
    (args : List String) : Call :=
  { call with args := args }

namespace Command

/-
  The positions at which the standard command of a name
  reads single arguments.
-/
def positionsOf
    (name : String) : List Nat :=
  if name = "args" then
    [0]
  else if name = "cp" ∨ name = "mv" then
    [0, 1]
  else
    []

/-
  Of its arguments a command reads nothing but those at some
  positions.
-/
def ReadsOnly
    (command : Command)
    (positions : List Nat) : Prop :=
  ∀ (call : Call) (args : List String) (files : FileSystem),
    (∀ position ∈ positions,
      args[position]? = call.args[position]?) →
        command.run (call.withArgs args) files =
          command.run call files

end Command

/- Goes on after a run that succeeded, which may fail. -/
def Run.andThen?
    (first : Run)
    (next : Option String → World → Option Run) :
    Option Run :=
  if first.outcome.isSuccess then
    (next first.outcome.output first.world).map
      (·.after first.events)
  else
    some first

namespace Shell

/-
  Runs a command, unless there is no argument at a position
  at which it reads one.
-/
def enter?
    (shell : Shell)
    (command : Command)
    (args : List String)
    (input : Option String)
    (toUser : Bool)
    (world : World) : Option Run :=
  if ∀ position ∈ Command.positionsOf command.name,
      position < args.length then
    some (shell.enter command args input toUser world)
  else
    none

/-
  Runs the command of a name, unless there is none. What it
  refuses it refuses as ever.
-/
def dispatch?
    (shell : Shell)
    (name : String)
    (args : List String)
    (input : Option String)
    (toUser : Bool)
    (world : World) : Option Run :=
  match shell.registry.find? name with
  | none => none
  | some command =>
    if command.signature.accepts args.length then
      (shell.enter? command args input toUser world).map
        (·.after [.entered name args])
    else
      some (shell.dispatch name args input toUser world)

/-
  Evaluates a line, unless it has to be cut where it cannot
  be cut, calls a command that is not there or one that
  reads a missing argument.
-/
def evaluateFor?
    (shell : Shell)
    (line : String)
    (input : Option String)
    (toUser : Bool)
    (world : World) : Option Run :=
  match hLine :
      Directive.ofLine? shell.registry.contains line with
  | none => none
  | some (.error fault) =>
    some
      ((refuse .syntaxError fault.message world).after
        [.unrecognized line fault])
  | some (.ok .empty) =>
    some
      (Run.after ⟨.success none, world, []⟩
        [.recognized line .empty])
  | some (.ok (.unregistered name _)) =>
    some
      ((notFound name world).after
        [.recognized line .unregistered])
  | some (.ok (.simple name args)) =>
    (shell.dispatch? name args input toUser world).map
      (·.after [.recognized line .simple])
  | some (.ok (.pipeline left right)) =>
    have := Directive.length_pipeline_lt
      (Directive.ofLine_of_ofLine? hLine)
    ((shell.evaluateFor? left input false world).bind
      fun first =>
        first.andThen? fun output next =>
          shell.evaluateFor? right output toUser next).map
      (·.after [.recognized line .pipeline])
  | some (.ok (.redirect mode left target)) =>
    have := Directive.length_redirect_lt
      (Directive.ofLine_of_ofLine? hLine)
    ((shell.evaluateFor? left input false world).map
      fun first =>
        first.andThen (write mode target)).map
      (·.after [.recognized line (.redirect mode)])
termination_by line.length
decreasing_by all_goals omega

end Shell

/- The runs of lines, unless one of them is out of range. -/
def Terminal.runLines?
    (terminal : Terminal) :
    List String → Option (List Run)
  | [] => some []
  | line :: lines => do
    let run ←
      terminal.shell.evaluateFor? line none
        terminal.shell.interactive terminal.world
    let others ←
      runLines? { terminal with world := run.world } lines
    some (run :: others)

end LineShell

------------------------------------------------------------
-- Arguments that are read
------------------------------------------------------------

namespace LineShell

theorem Call.resolve_withArgs
    (call : Call)
    (args : List String) :
    (call.withArgs args).resolve = call.resolve :=
  rfl

theorem Call.arg_withArgs
    {call : Call}
    {args : List String}
    {position : Nat}
    (hSame : args[position]? = call.args[position]?) :
    (call.withArgs args).arg position =
      call.arg position := by
  simp only [withArgs, arg, List.getD_eq_getElem?_getD,
    hSame]

theorem FileManagement.readsOnly_cp :
    cp.ReadsOnly [0, 1] := by
  intro call args files hSame
  have hFirst := Call.arg_withArgs (hSame 0 (by simp))
  have hSecond := Call.arg_withArgs (hSame 1 (by simp))
  unfold cp
  dsimp only
  rw [Call.resolve_withArgs, hFirst, hSecond]

theorem FileManagement.readsOnly_mv :
    mv.ReadsOnly [0, 1] := by
  intro call args files hSame
  have hFirst := Call.arg_withArgs (hSame 0 (by simp))
  have hSecond := Call.arg_withArgs (hSame 1 (by simp))
  unfold mv
  dsimp only
  rw [Call.resolve_withArgs, hFirst, hSecond]

theorem Guide.readsOnly_args :
    args.ReadsOnly [0] := by
  intro call given files hSame
  have hFirst := Call.arg_withArgs (hSame 0 (by simp))
  unfold args
  dsimp only
  rw [hFirst]
  rfl

namespace Registry

/-
  Every command of a registry takes so many arguments that
  it finds one wherever it reads one.
-/
def HasEnough
    (registry : Registry) : Prop :=
  ∀ name command,
    registry.find? name = some command →
      ∀ position ∈ Command.positionsOf command.name,
        position < command.signature.minArgs

/-
  The standard commands that read single arguments are
  `args`, `cp` and `mv`.
-/
theorem mem_standardCommands_reading
    {clock : Clock}
    {settings : Settings}
    {command : Command}
    (hMem : command ∈ standardCommands clock settings)
    (hReads : Command.positionsOf command.name ≠ []) :
    command ∈
      [Guide.args, FileManagement.cp, FileManagement.mv] := by
  have hReading :
      (standardCommands clock settings).filter
          (fun command =>
            Command.positionsOf command.name ≠ []) =
        [Guide.args, FileManagement.cp, FileManagement.mv] :=
    rfl
  rw [← hReading]
  exact List.mem_filter.2 ⟨hMem, decide_eq_true hReads⟩

theorem readsOnly_standardCommands
    {clock : Clock}
    {settings : Settings}
    {command : Command}
    (hMem : command ∈ standardCommands clock settings)
    (hReads : Command.positionsOf command.name ≠ []) :
    command.ReadsOnly
      (Command.positionsOf command.name) := by
  have hReading := mem_standardCommands_reading hMem hReads
  simp only [List.mem_cons, List.not_mem_nil, or_false]
    at hReading
  rcases hReading with rfl | rfl | rfl
  · exact Guide.readsOnly_args
  · exact FileManagement.readsOnly_cp
  · exact FileManagement.readsOnly_mv

/- What is entered within its bounds finds all it reads. -/
theorem HasEnough.lt_length
    {registry : Registry}
    (hEnough : registry.HasEnough)
    {name : String}
    {command : Command}
    {args : List String}
    (hFind : registry.find? name = some command)
    (hBounds :
      ¬ command.signature.IsOutOfBounds args.length)
    {position : Nat}
    (hMem : position ∈ Command.positionsOf command.name) :
    position < args.length := by
  have hLeast :
      command.signature.minArgs ≤ args.length :=
    Nat.le_of_not_lt fun hLess => hBounds (Or.inl hLess)
  exact Nat.lt_of_lt_of_le
    (hEnough name command hFind position hMem) hLeast

theorem hasEnough_standard
    (clock : Clock)
    (settings : Settings) :
    (standard clock settings).HasEnough := by
  intro name command hFind position hPosition
  have hMem :=
    ((find?_standard_iff clock settings).1 hFind).1
  have hReading :=
    mem_standardCommands_reading hMem
      (List.ne_nil_of_mem hPosition)
  have hBounds :
      ∀ command ∈
          [Guide.args, FileManagement.cp,
            FileManagement.mv],
        ∀ position ∈ Command.positionsOf command.name,
          position < command.signature.minArgs := by
    decide
  exact hBounds command hReading position hPosition

end Registry

end LineShell

------------------------------------------------------------
-- Evaluation stays in range
------------------------------------------------------------

namespace LineShell

namespace Shell

variable
    {shell : Shell}
    {command : Command}
    {args : List String}
    (hEnough : shell.registry.HasEnough)
    (input : Option String)
    (toUser : Bool)
    (world : World)

include hEnough

theorem enter?_eq
    {name : String}
    (hFind : shell.registry.find? name = some command)
    (hAccepts :
      command.signature.accepts args.length = true) :
    shell.enter? command args input toUser world =
      some (shell.enter command args input toUser world) := by
  unfold enter?
  apply if_pos
  intro position hMem
  exact hEnough.lt_length hFind
    (Signature.accepts_iff.1 hAccepts) hMem

theorem dispatch?_eq
    {name : String}
    (hFind : shell.registry.find? name = some command) :
    shell.dispatch? name args input toUser world =
      some
        (shell.dispatch name args input toUser world) := by
  unfold dispatch?
  rw [hFind]
  dsimp only
  split
  case isTrue hAccepts =>
    rw [enter?_eq hEnough input toUser world hFind hAccepts]
    simp [dispatch, hFind, hAccepts]
  case isFalse => rfl

omit hEnough in
theorem andThen?_eq
    {first : Run}
    {next : Option String → World → Run}
    {next? : Option String → World → Option Run}
    (hNext :
      ∀ output world,
        next? output world = some (next output world)) :
    first.andThen? next? = some (first.andThen next) := by
  unfold Run.andThen? Run.andThen
  split
  · rw [hNext]
    rfl
  · rfl

/- No evaluation gets out of range. -/
theorem evaluateFor?_eq
    (line : String) :
    shell.evaluateFor? line input toUser world =
      some (shell.evaluateFor line input toUser world) := by
  -- The sides of a line are evaluated as shorter lines.
  induction hLength : line.length
    using Nat.strongRecOn
    generalizing line input toUser world with
  | ind length ih =>
      subst hLength
      rw [evaluateFor?]
      split
      case h_1 hLine =>
        rw [Directive.ofLine?_eq] at hLine
        cases hLine
      case h_2 fault hLine =>
        have hText := Directive.ofLine_of_ofLine? hLine
        rw [evaluateFor_of_error input toUser world hText]
        rfl
      case h_3 hLine =>
        have hText := Directive.ofLine_of_ofLine? hLine
        rw [evaluateFor_of_empty input toUser world hText]
        rfl
      case h_4 name args hLine =>
        have hText := Directive.ofLine_of_ofLine? hLine
        rw [evaluateFor_of_unregistered input toUser world
          hText]
      case h_5 name args hLine =>
        have hText := Directive.ofLine_of_ofLine? hLine
        rcases Option.ne_none_iff_exists'.1
            (find?_of_simple hText) with
          ⟨command, hFind⟩
        rw [evaluateFor_of_simple input toUser world hText,
          dispatch?_eq hEnough input toUser world hFind]
        rfl
      case h_6 left right hLine =>
        have hText := Directive.ofLine_of_ofLine? hLine
        have hShorter := Directive.length_pipeline_lt hText
        have hLeft :=
          ih left.length hShorter.1 input false world left rfl
        have hRight := fun output next =>
          ih right.length hShorter.2 output toUser next right
            rfl
        rw [evaluateFor_of_pipeline input toUser world
            hText, hLeft, Option.bind_some,
          andThen?_eq hRight]
        rfl
      case h_7 mode left target hLine =>
        have hText := Directive.ofLine_of_ofLine? hLine
        have hShorter := Directive.length_redirect_lt hText
        have hLeft :=
          ih left.length hShorter input false world left rfl
        rw [evaluateFor_of_redirect input toUser world
          hText, hLeft]
        rfl

end Shell

end LineShell

------------------------------------------------------------
-- Sessions stay in range
------------------------------------------------------------

namespace LineShell

namespace Terminal

/- Each run of a session is that of a line without input. -/
theorem exists_evaluate_of_mem_runLines
    {terminal : Terminal}
    {lines : List String}
    {run : Run}
    (hMem : run ∈ terminal.runLines lines) :
    ∃ line world,
      terminal.shell.evaluate line none world = run := by
  induction lines generalizing terminal with
  | nil => cases hMem
  | cons line lines ih =>
      rcases List.mem_cons.1 hMem with rfl | hLater
      · exact ⟨line, terminal.world, rfl⟩
      · rcases ih hLater with ⟨other, world, hRun⟩
        exact ⟨other, world, hRun⟩

theorem runLines?_eq
    {terminal : Terminal}
    (hEnough : terminal.shell.registry.HasEnough)
    (lines : List String) :
    terminal.runLines? lines =
      some (terminal.runLines lines) := by
  induction lines generalizing terminal with
  | nil => rfl
  | cons line lines ih =>
      have hRun :=
        Shell.evaluateFor?_eq hEnough none
          terminal.shell.interactive terminal.world line
      have hOthers :
          (terminal.after line).runLines? lines =
            some ((terminal.after line).runLines lines) :=
        ih hEnough
      rw [runLines?, hRun]
      exact congrArg
        (fun others =>
          others.bind fun runs =>
            some (terminal.runLine line :: runs)) hOthers

/-
  Whatever lines a standard terminal runs, none of its steps
  is out of range. A command that reads single arguments
  reads no others, and is entered with as many as it reads;
  what is recognized as a command is found; a line is cut at
  offsets that are in it and inside no character, and so is
  a text into pages of any number of lines.
-/
theorem lines_stay_in_range
    (clock : Clock)
    (settings : Settings)
    (interactive : Bool)
    (directory : String)
    (files : FileSystem)
    (lines : List String) :
    let terminal :=
      start clock settings interactive directory files
    let registry := terminal.shell.registry
    terminal.runLines? lines =
        some (terminal.runLines lines) ∧
      (∀ run ∈ terminal.runLines lines,
        ∀ name args,
          .entered name args ∈ run.events →
            ∀ position ∈ Command.positionsOf name,
              position < args.length) ∧
      (∀ name command,
        registry.find? name = some command →
          Command.positionsOf name ≠ [] →
            command.ReadsOnly (Command.positionsOf name)) ∧
      (∀ text name args,
        Directive.ofLine registry.contains text =
            .ok (.simple name args) →
          ∃ command, registry.find? name = some command) ∧
      (∀ text scan boundary,
        Scan.ofLine text = .ok scan →
          scan.boundary = some boundary →
            ∀ offset ∈ boundary.offsets,
              offset ≤ text.utf8ByteSize ∧
                Text.isOffset text offset = true) ∧
      ∀ text pageLength,
        (∀ range ∈ Paging.ranges text pageLength,
          Text.HasSlice text range.start range.stop) ∧
          (Paging.ranges text pageLength).map
              (fun range =>
                Text.slice? text range.start range.stop) =
            (Paging.paginate text pageLength).map some := by
  intro terminal registry
  have hEnough : registry.HasEnough :=
    Registry.hasEnough_standard clock settings
  refine ⟨runLines?_eq hEnough lines, ?_, ?_, ?_, ?_, ?_⟩
  · intro run hRun name args hEntered position hPosition
    rcases exists_evaluate_of_mem_runLines hRun with
      ⟨line, world, rfl⟩
    rcases Shell.exists_command_of_entered_evaluate
        hEntered with
      ⟨command, hFind, hBounds⟩
    have hName :=
      ((Registry.find?_standard_iff clock settings).1
        hFind).2.1
    rw [← hName] at hPosition
    exact hEnough.lt_length hFind hBounds hPosition
  · intro name command hFind hReads
    rcases (Registry.find?_standard_iff clock settings).1
        hFind with
      ⟨hMem, rfl, _⟩
    exact Registry.readsOnly_standardCommands hMem hReads
  · intro text name args hText
    exact Option.ne_none_iff_exists'.1
      (Shell.find?_of_simple hText)
  · intro text scan boundary hScan hBoundary offset hMem
    have hOffset :=
      Scan.isOffset_of_mem_offsets hScan hBoundary hMem
    exact ⟨Text.le_of_isOffset hOffset, hOffset⟩
  · intro text pageLength
    exact
      ⟨fun range hMem => Paging.hasSlice_of_mem_ranges hMem,
        Paging.slice?_ranges text pageLength⟩

end Terminal

end LineShell

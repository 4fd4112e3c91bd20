import LineShell.Proofs.Session.Replacing
import LineShell.Proofs.Session.Turns

/-
  What a status tells. The status of a line names the cause
  for which its last turn ended as it did, or the failure of
  its redirect; no command is entered with a number of
  arguments that it does not take.

  Key definitions include:
    * `Turn.IsUnclosed`
    * `Turn.IsUnregistered`
    * `Turn.IsMiscounted`
    * `Turn.Returns`
    * `Turn.Causes`
    * `Shell.guarded`
    * `Shell.FailsToWrite`
    * `Shell.IsExplainedBy`

  Correctness is proven by:
    * `Turn.status_run_iff`
    * `Shell.evaluate_guarded`
    * `Shell.status_names_cause`
-/

------------------------------------------------------------
-- What a turn is about
------------------------------------------------------------

namespace LineShell

/-
  A count is out of the bounds of a signature: below the
  least number of arguments or above the greatest.
-/
def Signature.IsOutOfBounds
    (signature : Signature)
    (count : Nat) : Prop :=
  count < signature.minArgs ∨
    ∃ greatest,
      signature.maxArgs = some greatest ∧ greatest < count

theorem Signature.accepts_eq_false_iff
    {signature : Signature}
    {count : Nat} :
    signature.accepts count = false ↔
      signature.IsOutOfBounds count := by
  unfold accepts IsOutOfBounds
  cases signature.maxArgs with
  | none => simp
  | some greatest =>
      simp only [Bool.and_eq_false_iff, decide_eq_false_iff_not,
        Nat.not_le, Option.some.injEq]
      constructor
      · rintro (hLess | hMore)
        · exact Or.inl hLess
        · exact Or.inr ⟨greatest, rfl, hMore⟩
      · rintro (hLess | ⟨_, rfl, hMore⟩)
        · exact Or.inl hLess
        · exact Or.inr hMore

theorem Signature.accepts_iff
    {signature : Signature}
    {count : Nat} :
    signature.accepts count = true ↔
      ¬ signature.IsOutOfBounds count := by
  rw [← accepts_eq_false_iff, Bool.not_eq_false]

/-
  What a command answers when a shell enters it with these
  arguments and this input.
-/
def Shell.answer
    (shell : Shell)
    (command : Command)
    (args : List String)
    (input : Option String)
    (toUser : Bool)
    (world : World) : Answer :=
  command.run
    { args := args
      input :=
        if command.signature.acceptsInput then
          input
        else
          none
      directories := world.directories
      catalogue := shell.registry.signatures
      interactive := toUser }
    world.files

namespace Turn

/- The text of a turn has these words. -/
def Reads
    (turn : Turn)
    (words : List String) : Prop :=
  ∃ scan,
    Scan.ofLine turn.stage.text = .ok scan ∧
      scan.words = words

/- The text of a turn leaves a quote open. -/
def IsUnclosed
    (turn : Turn) : Prop :=
  ∃ fault, Scan.ofLine turn.stage.text = .error fault

/- The first word of a turn is not registered. -/
def IsUnregistered
    (shell : Shell)
    (turn : Turn) : Prop :=
  ∃ name args,
    turn.Reads (name :: args) ∧
      shell.registry.find? name = none

/-
  The first word of a turn is registered, and its arguments
  are too few or too many.
-/
def IsMiscounted
    (shell : Shell)
    (turn : Turn) : Prop :=
  ∃ name args command,
    turn.Reads (name :: args) ∧
      shell.registry.find? name = some command ∧
        command.signature.IsOutOfBounds args.length

/-
  The command of a turn is entered with a number of
  arguments in its bounds, and this is its result.
-/
def Returns
    (shell : Shell)
    (toUser : Bool)
    (turn : Turn)
    (result : Except Fault (Option String)) : Prop :=
  ∃ name args command,
    turn.Reads (name :: args) ∧
      shell.registry.find? name = some command ∧
        ¬ command.signature.IsOutOfBounds args.length ∧
          (shell.answer command args turn.input
            (toUser && turn.stage.isFinal)
            turn.world).result = result

/- What has to be so for a turn to end with a status. -/
def Causes
    (shell : Shell)
    (toUser : Bool)
    (turn : Turn) :
    Status → Prop
  | .syntaxError => turn.IsUnclosed
  | .commandNotFound => turn.IsUnregistered shell
  | .invalidArguments => turn.IsMiscounted shell
  | .genericError =>
    ∃ fault,
      turn.Returns shell toUser (.error fault) ∧
        ∀ path cause, fault ≠ .atPath path cause
  | .ioError =>
    ∃ path cause,
      turn.Returns shell toUser
        (.error (.atPath path cause))
  | .success =>
    turn.Reads [] ∨
      ∃ output, turn.Returns shell toUser (.ok output)

end Turn

end LineShell

------------------------------------------------------------
-- The status of a turn
------------------------------------------------------------

namespace LineShell

/- Only a fault at a path counts as one of input or output. -/
theorem Fault.status_eq_genericError
    {fault : Fault}
    (hOther :
      ∀ path cause, fault ≠ .atPath path cause) :
    fault.status = .genericError := by
  cases fault with
  | atPath path cause => exact absurd rfl (hOther path cause)
  | _ => rfl

/- The outcome that goes with the result of a command. -/
def Outcome.ofResult :
    Except Fault (Option String) → Outcome
  | .ok output => .success output
  | .error fault => .failure fault.status fault.message

/- A command that is entered ends as it says. -/
theorem Shell.outcome_enter
    (shell : Shell)
    (command : Command)
    (args : List String)
    (input : Option String)
    (toUser : Bool)
    (world : World) :
    (shell.enter command args input toUser world).outcome =
      Outcome.ofResult
        (shell.answer command args input toUser
          world).result := by
  unfold enter answer
  dsimp only
  split <;> simp_all [Outcome.ofResult]

namespace Turn

variable
    {shell : Shell}
    {toUser : Bool}
    {turn : Turn}

theorem demand_of_reads
    {words : List String}
    (hReads : turn.Reads words) :
    shell.demand turn.stage.text =
      shell.demandOfWords words := by
  rcases hReads with ⟨scan, hScan, rfl⟩
  rw [Shell.demand, hScan]

theorem run_of_isUnclosed
    (hUnclosed : turn.IsUnclosed) :
    ∃ fault,
      turn.run shell toUser =
        Run.after
          ⟨.failure .syntaxError (UnclosedQuote.message fault),
            turn.world,
            [.unrecognized turn.stage.text fault]⟩
          turn.stage.opening := by
  rcases hUnclosed with ⟨fault, hScan⟩
  have hDemand :
      shell.demand turn.stage.text = .unclosed fault := by
    rw [Shell.demand, hScan]
  refine ⟨fault, ?_⟩
  rw [run, Shell.runStage, Shell.runText, hDemand]

/- A turn whose first word is not registered says so. -/
theorem run_of_unknown
    (toUser : Bool)
    {name : String}
    {args : List String}
    (hReads : turn.Reads (name :: args))
    (hFind : shell.registry.find? name = none) :
    turn.run shell toUser =
      Run.after
        ⟨.failure .commandNotFound
            (name ++ ": command not found"), turn.world,
          [.recognized turn.stage.text .unregistered]⟩
        turn.stage.opening := by
  have hDemand :
      shell.demand turn.stage.text = .unknown name := by
    rw [demand_of_reads hReads, Shell.demandOfWords, hFind]
  rw [run, Shell.runStage, Shell.runText, hDemand]

theorem run_of_isUnregistered
    (hUnregistered : turn.IsUnregistered shell) :
    ∃ message,
      turn.run shell toUser =
        Run.after
          ⟨.failure .commandNotFound message, turn.world,
            [.recognized turn.stage.text .unregistered]⟩
          turn.stage.opening := by
  rcases hUnregistered with ⟨name, args, hReads, hFind⟩
  exact ⟨_, run_of_unknown toUser hReads hFind⟩

theorem run_of_isMiscounted
    (hMiscounted : turn.IsMiscounted shell) :
    ∃ message,
      turn.run shell toUser =
        Run.after
          ⟨.failure .invalidArguments message, turn.world,
            [.recognized turn.stage.text .simple]⟩
          turn.stage.opening := by
  rcases hMiscounted with
    ⟨name, args, command, hReads, hFind, hBounds⟩
  have hAccepts :
      command.signature.accepts args.length = false :=
    Signature.accepts_eq_false_iff.2 hBounds
  have hDemand :
      shell.demand turn.stage.text =
        .miscounted command name args := by
    rw [demand_of_reads hReads]
    simp [Shell.demandOfWords, hFind, hAccepts]
  refine
    ⟨name ++ ": expected " ++
      command.signature.describeCount ++ ", got " ++
      toString args.length, ?_⟩
  rw [run, Shell.runStage, Shell.runText, hDemand]

theorem outcome_of_reads_nil
    (hReads : turn.Reads []) :
    (turn.run shell toUser).outcome = .success none := by
  have hDemand :
      shell.demand turn.stage.text = .nothing := by
    rw [demand_of_reads hReads, Shell.demandOfWords]
  rw [run, Shell.runStage, Shell.runText, hDemand,
    Run.outcome_after]

/- A turn that calls a command enters it. -/
theorem run_of_accepts
    (toUser : Bool)
    {name : String}
    {args : List String}
    {command : Command}
    (hReads : turn.Reads (name :: args))
    (hFind : shell.registry.find? name = some command)
    (hAccepts :
      command.signature.accepts args.length = true) :
    turn.run shell toUser =
      (shell.enter command args turn.input
        (toUser && turn.stage.isFinal) turn.world).after
        (turn.stage.opening ++
          [.recognized turn.stage.text .simple,
            .entered name args]) := by
  have hDemand :
      shell.demand turn.stage.text =
        .call command name args := by
    rw [demand_of_reads hReads]
    simp [Shell.demandOfWords, hFind, hAccepts]
  rw [run, Shell.runStage, Shell.runText, hDemand,
    Run.after_after]

theorem outcome_of_returns
    {result : Except Fault (Option String)}
    (hReturns : turn.Returns shell toUser result) :
    (turn.run shell toUser).outcome =
      Outcome.ofResult result := by
  rcases hReturns with
    ⟨name, args, command, hReads, hFind, hBounds, hResult⟩
  have hAccepts :
      command.signature.accepts args.length = true :=
    Signature.accepts_iff.2 hBounds
  rw [run_of_accepts toUser hReads hFind hAccepts,
    Run.outcome_after, Shell.outcome_enter, hResult]

/- What causes a status has it as its consequence. -/
theorem status_of_causes
    {status : Status}
    (hCauses : turn.Causes shell toUser status) :
    (turn.run shell toUser).outcome.status = status := by
  cases status with
  | success =>
      rcases hCauses with hReads | ⟨output, hReturns⟩
      · rw [outcome_of_reads_nil hReads, Outcome.success]
      · rw [outcome_of_returns hReturns]
        rfl
  | genericError =>
      rcases hCauses with ⟨fault, hReturns, hOther⟩
      rw [outcome_of_returns hReturns]
      exact Fault.status_eq_genericError hOther
  | commandNotFound =>
      rcases run_of_isUnregistered hCauses with
        ⟨message, hRun⟩
      rw [hRun, Run.outcome_after, Outcome.failure]
  | invalidArguments =>
      rcases run_of_isMiscounted hCauses with
        ⟨message, hRun⟩
      rw [hRun, Run.outcome_after, Outcome.failure]
  | syntaxError =>
      rcases run_of_isUnclosed hCauses with ⟨fault, hRun⟩
      rw [hRun, Run.outcome_after, Outcome.failure]
  | ioError =>
      rcases hCauses with ⟨path, cause, hReturns⟩
      rw [outcome_of_returns hReturns]
      rfl

/- A result causes one of three statuses. -/
theorem exists_causes_of_returns
    {result : Except Fault (Option String)}
    (hReturns : turn.Returns shell toUser result) :
    ∃ status, turn.Causes shell toUser status := by
  cases result with
  | ok output =>
      exact ⟨.success, Or.inr ⟨output, hReturns⟩⟩
  | error fault =>
      by_cases hPath :
          ∃ path cause, fault = .atPath path cause
      · rcases hPath with ⟨path, cause, rfl⟩
        exact ⟨.ioError, path, cause, hReturns⟩
      · refine ⟨.genericError, fault, hReturns, ?_⟩
        intro path cause hFault
        exact hPath ⟨path, cause, hFault⟩

/- Something is the cause in every turn. -/
theorem exists_causes
    (shell : Shell)
    (toUser : Bool)
    (turn : Turn) :
    ∃ status, turn.Causes shell toUser status := by
  cases hScan : Scan.ofLine turn.stage.text with
  | error fault => exact ⟨.syntaxError, fault, hScan⟩
  | ok scan =>
      cases hWords : scan.words with
      | nil =>
          exact ⟨.success, Or.inl ⟨scan, hScan, hWords⟩⟩
      | cons name args =>
          have hReads : turn.Reads (name :: args) :=
            ⟨scan, hScan, hWords⟩
          cases hFind : shell.registry.find? name with
          | none =>
              exact ⟨.commandNotFound, name, args, hReads,
                hFind⟩
          | some command =>
              by_cases hBounds :
                  command.signature.IsOutOfBounds args.length
              · exact ⟨.invalidArguments, name, args, command,
                  hReads, hFind, hBounds⟩
              · exact exists_causes_of_returns
                  ⟨name, args, command, hReads, hFind, hBounds,
                    rfl⟩

/- A turn ends with a status exactly for its causes. -/
theorem status_run_iff
    {status : Status} :
    (turn.run shell toUser).outcome.status = status ↔
      turn.Causes shell toUser status := by
  constructor
  · intro hStatus
    rcases exists_causes shell toUser turn with
      ⟨other, hCauses⟩
    have hOther := status_of_causes hCauses
    rw [hStatus] at hOther
    rw [hOther]
    exact hCauses
  · exact status_of_causes

end Turn

end LineShell

------------------------------------------------------------
-- Which commands are entered
------------------------------------------------------------

namespace LineShell

variable
    {name : String}
    {args : List String}

theorem Stage.entered_not_mem_opening
    (stage : Stage) :
    .entered name args ∉ stage.opening := by
  unfold opening
  split <;> simp

namespace Shell

theorem entered_not_mem_applyMove
    (signature : Signature)
    (requested : List String)
    (directories : Directories) :
    .entered name args ∉
      (applyMove signature requested directories).2 := by
  unfold applyMove
  split
  · simp
  · split <;> simp

theorem entered_not_mem_enter
    (shell : Shell)
    (command : Command)
    (given : List String)
    (input : Option String)
    (toUser : Bool)
    (world : World) :
    .entered name args ∉
      (shell.enter command given input toUser
        world).events := by
  unfold enter
  dsimp only
  split
  · exact entered_not_mem_applyMove _ _ _
  · simp

theorem entered_not_mem_finish
    (target : Option Target)
    (output : Option String)
    (world : World) :
    .entered name args ∉
      (finish target output world).events := by
  cases target with
  | none => simp
  | some target =>
      rw [finish_some]
      unfold write
      dsimp only
      split <;> simp

end Shell

namespace Turn

variable
    {shell : Shell}
    {toUser : Bool}
    {turn : Turn}

/- A command that a turn enters takes what it is given. -/
theorem exists_command_of_entered
    (hEntered :
      .entered name args ∈ (turn.run shell toUser).events) :
    ∃ command,
      shell.registry.find? name = some command ∧
        ¬ command.signature.IsOutOfBounds args.length := by
  have hText :
      .entered name args ∈
        (shell.runText turn.stage.text turn.input
          (toUser && turn.stage.isFinal)
          turn.world).events := by
    rw [run, Shell.runStage, Run.events_after] at hEntered
    rcases List.mem_append.1 hEntered with hOpening | hText
    · exact absurd hOpening
        (Stage.entered_not_mem_opening _)
    · exact hText
  unfold Shell.runText at hText
  cases hDemand : shell.demand turn.stage.text with
  | unclosed fault => simp [hDemand] at hText
  | nothing => simp [hDemand] at hText
  | unknown other => simp [hDemand] at hText
  | miscounted command other given =>
      simp [hDemand] at hText
  | call command other given =>
      rw [hDemand] at hText
      simp only [Run.events_after, List.mem_append,
        List.mem_cons, reduceCtorEq, Event.entered.injEq,
        List.not_mem_nil, or_false, false_or] at hText
      rcases hText with ⟨rfl, rfl⟩ | hText
      · rcases Shell.find?_of_demand_eq_call hDemand with
          ⟨hFind, hAccepts⟩
        exact ⟨command, hFind,
          Signature.accepts_iff.1 hAccepts⟩
      · exact absurd hText
          (Shell.entered_not_mem_enter _ _ _ _ _ _)

/- A turn that is refused enters nothing and changes nothing. -/
theorem run_of_refused
    (hRefused :
      turn.IsUnclosed ∨
        turn.IsUnregistered shell ∨
          turn.IsMiscounted shell) :
    (∀ name args,
      .entered name args ∉ (turn.run shell toUser).events) ∧
      (turn.run shell toUser).world = turn.world := by
  have hOpening :
      ∀ name args,
        .entered name args ∉ turn.stage.opening := by
    intro name args
    exact Stage.entered_not_mem_opening turn.stage
  rcases hRefused with hUnclosed | hUnregistered | hMiscounted
  · rcases run_of_isUnclosed hUnclosed with ⟨fault, hRun⟩
    rw [hRun]
    simp [hOpening]
  · rcases run_of_isUnregistered hUnregistered with
      ⟨message, hRun⟩
    rw [hRun]
    simp [hOpening]
  · rcases run_of_isMiscounted hMiscounted with
      ⟨message, hRun⟩
    rw [hRun]
    simp [hOpening]

end Turn

end LineShell

------------------------------------------------------------
-- Guarded commands
------------------------------------------------------------

namespace LineShell

/-
  A command that does something else, whatever it may be,
  when it is given a number of arguments out of its bounds.
-/
def Command.guarded
    (fallback : Command → Call → FileSystem → Answer)
    (command : Command) : Command :=
  { command with
    run := fun call files =>
      if command.signature.accepts call.args.length then
        command.run call files
      else
        fallback command call files }

namespace Registry

/- A registry all of whose commands are guarded. -/
def guarded
    (fallback : Command → Call → FileSystem → Answer)
    (registry : Registry) : Registry :=
  ⟨registry.commands.map (Command.guarded fallback),
    List.pairwise_map.2 registry.sorted⟩

variable
    (fallback : Command → Call → FileSystem → Answer)
    (registry : Registry)

theorem find?_guarded
    (name : String) :
    (registry.guarded fallback).find? name =
      (registry.find? name).map
        (Command.guarded fallback) := by
  unfold find? guarded
  rw [List.find?_map]
  rfl

theorem signatures_guarded :
    (registry.guarded fallback).signatures =
      registry.signatures := by
  unfold signatures guarded
  rw [List.map_map]
  rfl

end Registry

/- What is asked for, with its command guarded. -/
def Demand.guarded
    (fallback : Command → Call → FileSystem → Answer) :
    Demand → Demand
  | .unclosed fault => .unclosed fault
  | .nothing => .nothing
  | .unknown name => .unknown name
  | .miscounted command name args =>
    .miscounted (command.guarded fallback) name args
  | .call command name args =>
    .call (command.guarded fallback) name args

namespace Shell

/- A shell all of whose commands are guarded. -/
def guarded
    (fallback : Command → Call → FileSystem → Answer)
    (shell : Shell) : Shell :=
  { shell with registry := shell.registry.guarded fallback }

variable
    (fallback : Command → Call → FileSystem → Answer)
    (shell : Shell)

/-
  Within the bounds of its signature a guarded command does
  what it did.
-/
theorem enter_guarded
    {command : Command}
    {args : List String}
    (hAccepts :
      command.signature.accepts args.length = true)
    (input : Option String)
    (toUser : Bool)
    (world : World) :
    (shell.guarded fallback).enter
        (command.guarded fallback) args input toUser world =
      shell.enter command args input toUser world := by
  have hSignatures :
      (shell.guarded fallback).registry.signatures =
        shell.registry.signatures :=
    Registry.signatures_guarded fallback shell.registry
  unfold enter
  rw [hSignatures]
  simp only [Command.guarded, hAccepts, if_true]
  rfl

theorem replaces_guarded :
    Replaces (Command.guarded fallback) shell
      (shell.guarded fallback) := by
  constructor
  · intro name
    exact Registry.find?_guarded fallback shell.registry
      name
  · intro command
    rfl

theorem demand_guarded
    (text : String) :
    (shell.guarded fallback).demand text =
      (shell.demand text).guarded fallback := by
  rw [demand_of_replaces (replaces_guarded fallback shell)]
  cases shell.demand text <;> rfl

theorem runText_guarded
    (text : String)
    (input : Option String)
    (toUser : Bool)
    (world : World) :
    (shell.guarded fallback).runText text input toUser
        world =
      shell.runText text input toUser world := by
  have hGuarded := demand_guarded fallback shell text
  unfold runText
  rw [hGuarded]
  cases hDemand : shell.demand text with
  | unclosed fault => rfl
  | nothing => rfl
  | unknown name => rfl
  | miscounted command name args => rfl
  | call command name args =>
      -- Only a count within the bounds leads to a call.
      have hAccepts := (find?_of_demand_eq_call hDemand).2
      simp only [Demand.guarded]
      rw [enter_guarded fallback shell hAccepts]

theorem runStages_guarded
    (toUser : Bool)
    (stages : List Stage)
    (input : Option String)
    (world : World) :
    (shell.guarded fallback).runStages toUser stages input
        world =
      shell.runStages toUser stages input world := by
  induction stages generalizing input world with
  | nil => rfl
  | cons stage rest ih =>
      have hStage :
          (shell.guarded fallback).runStage toUser stage
              input world =
            shell.runStage toUser stage input world := by
        unfold runStage
        rw [runText_guarded]
      have hRest :
          (shell.guarded fallback).runStages toUser rest =
            shell.runStages toUser rest := by
        funext output next
        exact ih output next
      rw [runStages, runStages, hStage, hRest]

/-
  What commands do with a number of arguments out of their
  bounds makes no difference to any evaluation: they are
  never entered with one.
-/
theorem evaluate_guarded
    (line : String)
    (input : Option String)
    (world : World) :
    (shell.guarded fallback).evaluate line input world =
      shell.evaluate line input world := by
  have hCuts := Plan.cuts_ofLine line
  unfold evaluate
  rw [evaluateFor_of_cuts hCuts, evaluateFor_of_cuts hCuts]
  unfold runPlan
  rw [runStages_guarded]
  rfl

end Shell

end LineShell

------------------------------------------------------------
-- Lines for failures
------------------------------------------------------------

namespace LineShell

namespace Outcome

/- Unless it is a success, an outcome carries a line. -/
def HasLine
    (outcome : Outcome) : Prop :=
  outcome.status ≠ .success →
    ∃ text,
      outcome.output = some text ∧
        text.toList.getLast? = some '\n'

theorem getLast?_asLine
    (text : String) :
    (asLine text).toList.getLast? = some '\n' := by
  unfold asLine
  by_cases hLine : text.toList.getLast? = some '\n'
  · rw [if_pos hLine]
    exact hLine
  · rw [if_neg hLine, String.toList_append]
    exact List.getLast?_concat

theorem hasLine_success
    (output : Option String) :
    (success output).HasLine := by
  intro hStatus
  exact absurd rfl hStatus

theorem hasLine_failure
    (status : Status)
    (message : String) :
    (failure status message).HasLine := by
  intro _
  exact ⟨asLine message, rfl, getLast?_asLine message⟩

theorem hasLine_ofResult
    (result : Except Fault (Option String)) :
    (ofResult result).HasLine := by
  cases result with
  | ok output => exact hasLine_success output
  | error fault =>
      exact hasLine_failure fault.status fault.message

end Outcome

theorem Run.hasLine_andThen
    {first : Run}
    {next : Option String → World → Run}
    (hFirst : first.outcome.HasLine)
    (hNext :
      ∀ output world, (next output world).outcome.HasLine) :
    (first.andThen next).outcome.HasLine := by
  cases hSuccess : first.outcome.isSuccess with
  | true =>
      rw [andThen_of_isSuccess hSuccess, outcome_after]
      exact hNext _ _
  | false =>
      rw [andThen_of_not_isSuccess hSuccess]
      exact hFirst

namespace Shell

variable
    (shell : Shell)
    (toUser : Bool)

theorem hasLine_runText
    (text : String)
    (input : Option String)
    (world : World) :
    (shell.runText text input toUser
      world).outcome.HasLine := by
  unfold runText
  cases shell.demand text with
  | unclosed fault => exact Outcome.hasLine_failure _ _
  | nothing => exact Outcome.hasLine_success _
  | unknown name => exact Outcome.hasLine_failure _ _
  | miscounted command name args =>
      exact Outcome.hasLine_failure _ _
  | call command name args =>
      simp only [Run.outcome_after]
      rw [outcome_enter]
      exact Outcome.hasLine_ofResult _

theorem hasLine_runStages
    (stages : List Stage)
    (input : Option String)
    (world : World) :
    (shell.runStages toUser stages input
      world).outcome.HasLine := by
  induction stages generalizing input world with
  | nil => exact Outcome.hasLine_success input
  | cons stage rest ih =>
      rw [runStages]
      apply Run.hasLine_andThen
      · exact hasLine_runText shell _ _ _ _
      · exact ih

theorem hasLine_finish
    (target : Option Target)
    (output : Option String)
    (world : World) :
    (finish target output world).outcome.HasLine := by
  cases target with
  | none => exact Outcome.hasLine_success output
  | some target =>
      rw [finish_some]
      unfold write
      dsimp only
      split
      · exact Outcome.hasLine_success none
      · exact Outcome.hasLine_failure _ _

theorem hasLine_runPlan
    (plan : Plan)
    (input : Option String)
    (world : World) :
    (shell.runPlan toUser plan input
      world).outcome.HasLine := by
  unfold runPlan
  apply Run.hasLine_andThen
  · exact hasLine_runStages shell toUser _ _ _
  · exact hasLine_finish plan.target

end Shell

end LineShell

------------------------------------------------------------
-- The status of a line
------------------------------------------------------------

namespace LineShell

namespace Run

/- What a run leaves cannot be written to a target. -/
def CannotWrite
    (run : Run)
    (target : Target) : Prop :=
  ∃ cause,
    run.world.files.writeFile target.mode
        (run.world.directories.resolve target.path)
        (run.outcome.output.getD "").toByteArray =
      .error cause

variable
    {run : Run}
    {target : Target}

theorem status_write_of_cannotWrite
    (hWrite : run.CannotWrite target) :
    (Shell.write target.mode target.path run.outcome.output
      run.world).outcome.status = .ioError := by
  rcases hWrite with ⟨cause, hFile⟩
  rw [Shell.write_of_error hFile, Outcome.failure]

theorem status_write_of_not_cannotWrite
    (hWrite : ¬ run.CannotWrite target) :
    (Shell.write target.mode target.path run.outcome.output
      run.world).outcome.status = .success := by
  cases hFile :
      run.world.files.writeFile target.mode
        (run.world.directories.resolve target.path)
        (run.outcome.output.getD "").toByteArray with
  | ok files =>
      rw [Shell.write_of_ok hFile, Outcome.success]
  | error cause => exact absurd ⟨cause, hFile⟩ hWrite

end Run

namespace Shell

/-
  The stages of a plan succeed, but what they leave cannot
  be written to its target.
-/
def FailsToWrite
    (shell : Shell)
    (toUser : Bool)
    (plan : Plan)
    (input : Option String)
    (world : World) : Prop :=
  (shell.runStages toUser plan.stages input
      world).outcome.isSuccess = true ∧
    ∃ target,
      plan.target = some target ∧
        (shell.runStages toUser plan.stages input
          world).CannotWrite target

/-
  What the status of a line tells about the last turn of its
  plan, and about the redirect behind it.
-/
structure IsExplainedBy
    (shell : Shell)
    (toUser : Bool)
    (plan : Plan)
    (input : Option String)
    (world : World)
    (status : Status)
    (turn : Turn) : Prop where
  syntaxError :
    status = .syntaxError ↔ turn.IsUnclosed
  commandNotFound :
    status = .commandNotFound ↔ turn.IsUnregistered shell
  invalidArguments :
    status = .invalidArguments ↔ turn.IsMiscounted shell
  genericError :
    status = .genericError ↔
      ∃ fault,
        turn.Returns shell toUser (.error fault) ∧
          ∀ path cause, fault ≠ .atPath path cause
  ioError :
    status = .ioError ↔
      (∃ path cause,
        turn.Returns shell toUser
          (.error (.atPath path cause))) ∨
        shell.FailsToWrite toUser plan input world
  success :
    status = .success ↔
      (turn.Reads [] ∨
        ∃ output, turn.Returns shell toUser (.ok output)) ∧
        ¬ shell.FailsToWrite toUser plan input world

variable
    {shell : Shell}
    {toUser : Bool}
    {plan : Plan}
    {input : Option String}
    {world : World}

theorem status_runPlan_of_failsToWrite
    (hWrite :
      shell.FailsToWrite toUser plan input world) :
    (shell.runPlan toUser plan input
      world).outcome.status = .ioError := by
  rcases hWrite with ⟨hSuccess, target, hTarget, hWrite⟩
  unfold runPlan
  rw [Run.andThen_of_isSuccess hSuccess, Run.outcome_after,
    hTarget, finish_some]
  exact Run.status_write_of_cannotWrite hWrite

/- Unless its redirect fails, a plan ends as its stages do. -/
theorem status_runPlan_of_not_failsToWrite
    (hWrite :
      ¬ shell.FailsToWrite toUser plan input world) :
    (shell.runPlan toUser plan input
        world).outcome.status =
      (shell.runStages toUser plan.stages input
        world).outcome.status := by
  unfold runPlan
  cases hSuccess :
      (shell.runStages toUser plan.stages input
        world).outcome.isSuccess with
  | false => rw [Run.andThen_of_not_isSuccess hSuccess]
  | true =>
      have hStatus :
          (shell.runStages toUser plan.stages input
            world).outcome.status = .success := by
        simpa [Outcome.isSuccess] using hSuccess
      rw [Run.andThen_of_isSuccess hSuccess,
        Run.outcome_after, hStatus]
      cases hTarget : plan.target with
      | none => rfl
      | some target =>
          rw [finish_some]
          apply Run.status_write_of_not_cannotWrite
          intro hTargetFails
          exact hWrite
            ⟨hSuccess, target, hTarget, hTargetFails⟩

/- The last turn of a plan explains its status. -/
theorem isExplainedBy_of_isLastTurn
    {front : List Turn}
    {turn : Turn}
    (hLast :
      shell.IsLastTurn toUser plan.stages input world front
        turn) :
    shell.IsExplainedBy toUser plan input world
      (shell.runPlan toUser plan input
        world).outcome.status turn := by
  by_cases hWrite :
      shell.FailsToWrite toUser plan input world
  · -- The stages succeeded: no other status has a cause.
    have hSuccess :
        (turn.run shell toUser).outcome.status =
          .success := by
      rw [← hLast.outcome_eq]
      simpa [Outcome.isSuccess] using hWrite.1
    have hOther :
        ∀ status,
          turn.Causes shell toUser status →
            status = .success := by
      intro status hCauses
      rw [← Turn.status_of_causes hCauses, hSuccess]
    have hNone :
        ∀ status,
          status ≠ .success →
            status ≠ .ioError →
              (.ioError = status ↔
                turn.Causes shell toUser status) := by
      intro status hNoSuccess hNoIoError
      constructor
      · intro hStatus
        exact absurd hStatus.symm hNoIoError
      · intro hCauses
        exact absurd (hOther status hCauses) hNoSuccess
    rw [status_runPlan_of_failsToWrite hWrite]
    constructor
    · exact hNone .syntaxError (by simp) (by simp)
    · exact hNone .commandNotFound (by simp) (by simp)
    · exact hNone .invalidArguments (by simp) (by simp)
    · exact hNone .genericError (by simp) (by simp)
    · exact iff_of_true rfl (Or.inr hWrite)
    · simp [hWrite]
  · have hStatus :
        ∀ status,
          (shell.runPlan toUser plan input
              world).outcome.status = status ↔
            turn.Causes shell toUser status := by
      intro status
      rw [status_runPlan_of_not_failsToWrite hWrite,
        hLast.outcome_eq]
      exact Turn.status_run_iff
    constructor
    · exact hStatus .syntaxError
    · exact hStatus .commandNotFound
    · exact hStatus .invalidArguments
    · exact hStatus .genericError
    · rw [hStatus .ioError]
      simp only [hWrite, or_false]
      exact Iff.rfl
    · rw [hStatus .success]
      simp only [hWrite, not_false_eq_true, and_true]
      exact Iff.rfl

/-
  A command that an evaluation enters takes what it is
  given.
-/
theorem exists_command_of_entered_evaluate
    {line name : String}
    {args : List String}
    (hEntered :
      .entered name args ∈
        (shell.evaluate line input world).events) :
    ∃ command,
      shell.registry.find? name = some command ∧
        ¬ command.signature.IsOutOfBounds args.length := by
  unfold evaluate at hEntered
  rw [evaluateFor_of_cuts (Plan.cuts_ofLine line)]
    at hEntered
  unfold runPlan at hEntered
  have hStages :
      .entered name args ∈
        (shell.runStages shell.interactive
          (Plan.ofLine line).stages input world).events := by
    cases hSuccess :
        (shell.runStages shell.interactive
          (Plan.ofLine line).stages input
          world).outcome.isSuccess with
    | true =>
        rw [Run.andThen_of_isSuccess hSuccess,
          Run.events_after] at hEntered
        rcases List.mem_append.1 hEntered with hIn | hFinish
        · exact hIn
        · exact absurd hFinish
            (entered_not_mem_finish _ _ _)
    | false =>
        rw [Run.andThen_of_not_isSuccess hSuccess]
          at hEntered
        exact hEntered
  rw [events_runStages] at hStages
  rcases List.mem_flatMap.1 hStages with
    ⟨turn, hTurn, hEvent⟩
  exact Turn.exists_command_of_entered hEvent

/- What is recognized as a command is registered. -/
theorem find?_of_simple
    {registry : Registry}
    {text name : String}
    {args : List String}
    (hText :
      Directive.ofLine registry.contains text =
        .ok (.simple name args)) :
    registry.find? name ≠ none := by
  rcases Directive.eq_of_ofLine hText with
    ⟨scan, hScan, ⟨hNone, hWords⟩ |
      ⟨boundary, hSome, hEq⟩⟩
  · cases hList : scan.words with
    | nil => simp [hList, Directive.ofWords] at hWords
    | cons first rest =>
        rw [hList, Directive.ofWords] at hWords
        split at hWords
        case isTrue hRegistered =>
          rw [Directive.simple.injEq] at hWords
          rw [hWords.1]
          intro hFind
          simp [Registry.contains, hFind] at hRegistered
        case isFalse => cases hWords
  · unfold Directive.atBoundary at hEq
    cases hOperator : boundary.operator <;>
      simp [hOperator] at hEq

/-
  The status of a line names its cause exactly. One turn is
  the last, all before it succeeded, and it explains the
  status. A turn that is refused enters no command and
  changes nothing. None is entered with a number of
  arguments out of its bounds, nor could one make a
  difference by what it does with such a number. What is
  dispatched is registered, and a line that does not succeed
  says why.
-/
theorem status_names_cause
    (shell : Shell)
    (line : String)
    (input : Option String)
    (world : World) :
    (∃ front turn,
      shell.IsLastTurn shell.interactive
          (Plan.ofLine line).stages input world front turn ∧
        shell.IsExplainedBy shell.interactive
          (Plan.ofLine line) input world
          (shell.evaluate line input world).outcome.status
          turn ∧
        (turn.IsUnclosed ∨
            turn.IsUnregistered shell ∨
              turn.IsMiscounted shell →
          (∀ name args,
            .entered name args ∉
              (turn.run shell shell.interactive).events) ∧
            (turn.run shell shell.interactive).world =
              turn.world)) ∧
      (∀ name args,
        .entered name args ∈
            (shell.evaluate line input world).events →
          ∃ command,
            shell.registry.find? name = some command ∧
              ¬ command.signature.IsOutOfBounds
                args.length) ∧
      (∀ fallback,
        (shell.guarded fallback).evaluate line input world =
          shell.evaluate line input world) ∧
      (∀ text name args,
        Directive.ofLine shell.registry.contains text =
            .ok (.simple name args) →
          shell.registry.find? name ≠ none) ∧
      (shell.evaluate line input world).outcome.HasLine := by
  have hPlan :
      shell.evaluate line input world =
        shell.runPlan shell.interactive (Plan.ofLine line)
          input world :=
    evaluateFor_of_cuts (Plan.cuts_ofLine line) input
      shell.interactive world
  rcases exists_isLastTurn shell shell.interactive
      (Plan.stages_ne_nil line) input world with
    ⟨front, turn, hLast⟩
  refine ⟨⟨front, turn, hLast, ?_, ?_⟩, ?_, ?_, ?_, ?_⟩
  · rw [hPlan]
    exact isExplainedBy_of_isLastTurn hLast
  · intro hRefused
    exact Turn.run_of_refused hRefused
  · intro name args hEntered
    exact exists_command_of_entered_evaluate hEntered
  · intro fallback
    exact evaluate_guarded fallback shell line input world
  · intro text name args hText
    exact find?_of_simple hText
  · rw [hPlan]
    exact hasLine_runPlan shell shell.interactive
      (Plan.ofLine line) input world

end Shell

end LineShell

import LineShell.Proofs.Line.Plan
import LineShell.Session.Evaluate

/-
  Evaluation as a loop over stages. Running a plan runs its
  stages from left to right and writes to its target at the
  end; the first failure ends it.

  Key definitions include:
    * `Stage.opening`
    * `Demand`
    * `Shell.demand`
    * `Shell.runText`
    * `Shell.runStages`
    * `Shell.runPlan`

  Correctness is proven by:
    * `Shell.evaluateFor_of_undivided`
    * `Shell.evaluateFor_of_cuts`
    * `Shell.evaluate_eq_runPlan`
-/

------------------------------------------------------------
-- Running a plan
------------------------------------------------------------

namespace LineShell

namespace Stage

/- What is recorded before a stage is looked at. -/
def opening
    (stage : Stage) : List Event :=
  match stage.cutFrom with
  | none => []
  | some (text, kind) => [.recognized text kind]

end Stage

/-
  What a stage asks for: it is no text of the language, it
  is blank, its first word is not registered, it has a wrong
  number of arguments, or it calls a command.
-/
inductive Demand where
  | unclosed (fault : UnclosedQuote)
  | nothing
  | unknown (name : String)
  | miscounted
      (command : Command)
      (name : String)
      (args : List String)
  | call
      (command : Command)
      (name : String)
      (args : List String)

namespace Shell

/- What the words of a stage ask a shell for. -/
def demandOfWords
    (shell : Shell) :
    List String → Demand
  | [] => .nothing
  | name :: args =>
    match shell.registry.find? name with
    | none => .unknown name
    | some command =>
      if command.signature.accepts args.length then
        .call command name args
      else
        .miscounted command name args

/- What the text of a stage asks a shell for. -/
def demand
    (shell : Shell)
    (text : String) : Demand :=
  match Scan.ofLine text with
  | .error fault => .unclosed fault
  | .ok scan => shell.demandOfWords scan.words

/- Runs a text that no operator divides. -/
def runText
    (shell : Shell)
    (text : String)
    (input : Option String)
    (toUser : Bool)
    (world : World) : Run :=
  match shell.demand text with
  | .unclosed fault =>
    ⟨.failure .syntaxError fault.message, world,
      [.unrecognized text fault]⟩
  | .nothing =>
    ⟨.success none, world, [.recognized text .empty]⟩
  | .unknown name =>
    ⟨.failure .commandNotFound
        (name ++ ": command not found"), world,
      [.recognized text .unregistered]⟩
  | .miscounted command name args =>
    ⟨.failure .invalidArguments
        (name ++ ": expected " ++
          command.signature.describeCount ++ ", got " ++
          toString args.length), world,
      [.recognized text .simple]⟩
  | .call command name args =>
    (shell.enter command args input toUser world).after
      [.recognized text .simple, .entered name args]

/- Runs a stage. Only the final one may show its text. -/
def runStage
    (shell : Shell)
    (toUser : Bool)
    (stage : Stage)
    (input : Option String)
    (world : World) : Run :=
  (shell.runText stage.text input
    (toUser && stage.isFinal) world).after stage.opening

/-
  Runs stages from left to right. The output of each one is
  the input of the next, and the first failure is the end.
-/
def runStages
    (shell : Shell)
    (toUser : Bool) :
    List Stage → Option String → World → Run
  | [], output, world => ⟨.success output, world, []⟩
  | stage :: rest, input, world =>
    (shell.runStage toUser stage input world).andThen
      (runStages shell toUser rest)

/- Writes the last output to the target, if there is one. -/
def finish
    (target : Option Target)
    (output : Option String)
    (world : World) : Run :=
  match target with
  | none => ⟨.success output, world, []⟩
  | some ⟨mode, path⟩ => write mode path output world

/- Runs the stages of a plan and then writes to its target. -/
def runPlan
    (shell : Shell)
    (toUser : Bool)
    (plan : Plan)
    (input : Option String)
    (world : World) : Run :=
  (shell.runStages toUser plan.stages input world).andThen
    (finish plan.target)

end Shell

end LineShell

------------------------------------------------------------
-- Runs in sequence
------------------------------------------------------------

namespace LineShell

theorem Outcome.success_output
    {outcome : Outcome}
    (hSuccess : outcome.isSuccess = true) :
    .success outcome.output = outcome := by
  rcases outcome with ⟨status, output⟩
  have hStatus : status = .success := by
    simpa [isSuccess] using hSuccess
  rw [hStatus]
  rfl

namespace Run

@[simp]
theorem after_nil
    (run : Run) :
    run.after [] = run :=
  rfl

@[simp]
theorem after_after
    (run : Run)
    (first second : List Event) :
    (run.after second).after first =
      run.after (first ++ second) := by
  simp [after]

@[simp]
theorem outcome_after
    (run : Run)
    (events : List Event) :
    (run.after events).outcome = run.outcome :=
  rfl

@[simp]
theorem world_after
    (run : Run)
    (events : List Event) :
    (run.after events).world = run.world :=
  rfl

@[simp]
theorem events_after
    (run : Run)
    (events : List Event) :
    (run.after events).events = events ++ run.events :=
  rfl

theorem andThen_of_isSuccess
    {first : Run}
    (hSuccess : first.outcome.isSuccess = true)
    (next : Option String → World → Run) :
    first.andThen next =
      (next first.outcome.output first.world).after
        first.events := by
  simp [andThen, hSuccess]

theorem andThen_of_not_isSuccess
    {first : Run}
    (hFailure : first.outcome.isSuccess = false)
    (next : Option String → World → Run) :
    first.andThen next = first := by
  simp [andThen, hFailure]

/- What was recorded before a run stays before what follows. -/
theorem after_andThen
    (first : Run)
    (events : List Event)
    (next : Option String → World → Run) :
    (first.after events).andThen next =
      (first.andThen next).after events := by
  cases hSuccess : first.outcome.isSuccess with
  | true =>
      rw [andThen_of_isSuccess hSuccess,
        andThen_of_isSuccess (by simpa using hSuccess)]
      simp
  | false =>
      rw [andThen_of_not_isSuccess hSuccess,
        andThen_of_not_isSuccess (by simpa using hSuccess)]

theorem andThen_assoc
    (first : Run)
    (second third : Option String → World → Run) :
    (first.andThen second).andThen third =
      first.andThen fun output world =>
        (second output world).andThen third := by
  cases hSuccess : first.outcome.isSuccess with
  | true =>
      rw [andThen_of_isSuccess hSuccess,
        andThen_of_isSuccess hSuccess, after_andThen]
  | false =>
      rw [andThen_of_not_isSuccess hSuccess,
        andThen_of_not_isSuccess hSuccess,
        andThen_of_not_isSuccess hSuccess]

/- To go on with nothing changes nothing. -/
theorem andThen_success
    (run : Run) :
    (run.andThen fun output world =>
      ⟨.success output, world, []⟩) = run := by
  cases hSuccess : run.outcome.isSuccess with
  | true =>
      rw [andThen_of_isSuccess hSuccess,
        Outcome.success_output hSuccess]
      simp [after]
  | false =>
      exact andThen_of_not_isSuccess hSuccess _

end Run

end LineShell

------------------------------------------------------------
-- One step of an evaluation
------------------------------------------------------------

namespace LineShell

namespace Shell

variable
    {shell : Shell}
    {line : String}
    (input : Option String)
    (toUser : Bool)
    (world : World)

theorem evaluateFor_of_pipeline
    {left right : String}
    (hLine :
      Directive.ofLine shell.registry.contains line =
        .ok (.pipeline left right)) :
    shell.evaluateFor line input toUser world =
      ((shell.evaluateFor left input false world).andThen
        fun output next =>
          shell.evaluateFor right output toUser next).after
        [.recognized line .pipeline] := by
  rw [evaluateFor]
  split <;> simp_all

theorem evaluateFor_of_redirect
    {mode : WriteMode}
    {left target : String}
    (hLine :
      Directive.ofLine shell.registry.contains line =
        .ok (.redirect mode left target)) :
    shell.evaluateFor line input toUser world =
      ((shell.evaluateFor left input false world).andThen
        (write mode target)).after
        [.recognized line (.redirect mode)] := by
  rw [evaluateFor]
  split <;> simp_all

theorem evaluateFor_of_error
    {fault : UnclosedQuote}
    (hLine :
      Directive.ofLine shell.registry.contains line =
        .error fault) :
    shell.evaluateFor line input toUser world =
      ⟨.failure .syntaxError fault.message, world,
        [.unrecognized line fault]⟩ := by
  rw [evaluateFor]
  split <;> simp_all [refuse, Run.after]

theorem evaluateFor_of_empty
    (hLine :
      Directive.ofLine shell.registry.contains line =
        .ok .empty) :
    shell.evaluateFor line input toUser world =
      ⟨.success none, world,
        [.recognized line .empty]⟩ := by
  rw [evaluateFor]
  split <;> simp_all [Run.after]

theorem evaluateFor_of_unregistered
    {name : String}
    {args : List String}
    (hLine :
      Directive.ofLine shell.registry.contains line =
        .ok (.unregistered name args)) :
    shell.evaluateFor line input toUser world =
      (notFound name world).after
        [.recognized line .unregistered] := by
  rw [evaluateFor]
  split <;> simp_all

theorem evaluateFor_of_simple
    {name : String}
    {args : List String}
    (hLine :
      Directive.ofLine shell.registry.contains line =
        .ok (.simple name args)) :
    shell.evaluateFor line input toUser world =
      (shell.dispatch name args input toUser world).after
        [.recognized line .simple] := by
  rw [evaluateFor]
  split <;> simp_all

theorem write_of_ok
    {mode : WriteMode}
    {target : String}
    {text : Option String}
    {world : World}
    {files : FileSystem}
    (hFile :
      world.files.writeFile mode
          (world.directories.resolve target)
          (text.getD "").toByteArray =
        .ok files) :
    write mode target text world =
      ⟨.success none, { world with files := files },
        [.wrote (text.getD "").toByteArray.size
          (world.directories.resolve target) mode]⟩ := by
  unfold write
  dsimp only
  rw [hFile]

theorem write_of_error
    {mode : WriteMode}
    {target : String}
    {text : Option String}
    {world : World}
    {cause : FileError}
    (hFile :
      world.files.writeFile mode
          (world.directories.resolve target)
          (text.getD "").toByteArray =
        .error cause) :
    write mode target text world =
      ⟨.failure .ioError
          (world.directories.resolve target ++ ": " ++
            cause.message),
        world,
        [.writeFailed (world.directories.resolve target)
          cause]⟩ := by
  unfold write
  dsimp only
  rw [hFile]

/-
  Words alone do what they demand. What is registered when
  they are recognized is found when they are dispatched.
-/
theorem evaluateFor_of_words
    {words : List String}
    (hLine :
      Directive.ofLine shell.registry.contains line =
        .ok (Directive.ofWords shell.registry.contains
          words))
    (hDemand :
      shell.demand line = shell.demandOfWords words) :
    shell.evaluateFor line input toUser world =
      shell.runText line input toUser world := by
  rw [runText, hDemand]
  cases words with
  | nil =>
      exact evaluateFor_of_empty input toUser world hLine
  | cons name args =>
      cases hFind : shell.registry.find? name with
      | none =>
          have hUnregistered :
              Directive.ofWords shell.registry.contains
                  (name :: args) =
                .unregistered name args := by
            simp [Directive.ofWords, Registry.contains, hFind]
          rw [hUnregistered] at hLine
          rw [evaluateFor_of_unregistered input toUser world
            hLine]
          simp [demandOfWords, hFind, notFound, refuse,
            Run.after]
      | some command =>
          have hSimple :
              Directive.ofWords shell.registry.contains
                  (name :: args) =
                .simple name args := by
            simp [Directive.ofWords, Registry.contains, hFind]
          rw [hSimple] at hLine
          rw [evaluateFor_of_simple input toUser world hLine]
          cases hAccepts :
              command.signature.accepts args.length <;>
            simp [demandOfWords, dispatch, hFind, hAccepts,
              refuse, Run.after]

/- A text that no operator divides is evaluated at once. -/
theorem evaluateFor_of_undivided
    (hWhole : ¬ IsDividedText line.toList) :
    shell.evaluateFor line input toUser world =
      shell.runText line input toUser world := by
  cases hScan : Scan.ofLine line with
  | error fault =>
      have hLine :
          Directive.ofLine shell.registry.contains line =
            .error fault := by
        simp [Directive.ofLine, hScan, Except.map]
      have hDemand : shell.demand line = .unclosed fault := by
        simp [demand, hScan]
      rw [evaluateFor_of_error input toUser world hLine,
        runText, hDemand]
  | ok scan =>
      have hNone := boundary_eq_none hWhole hScan
      have hLine :
          Directive.ofLine shell.registry.contains line =
            .ok (Directive.ofWords shell.registry.contains
              scan.words) := by
        simp [Directive.ofLine, hScan, Except.map, hNone]
      have hDemand :
          shell.demand line =
            shell.demandOfWords scan.words := by
        simp [demand, hScan]
      exact evaluateFor_of_words input toUser world hLine
        hDemand

end Shell

end LineShell

------------------------------------------------------------
-- Commands that are called
------------------------------------------------------------

namespace LineShell

namespace Shell

variable
    {shell : Shell}
    {command : Command}
    {name : String}
    {args : List String}

/- A command that is called takes what it is given. -/
theorem find?_of_demandOfWords_eq_call
    {words : List String}
    (hDemand :
      shell.demandOfWords words =
        .call command name args) :
    shell.registry.find? name = some command ∧
      command.signature.accepts args.length = true := by
  cases words with
  | nil => simp [demandOfWords] at hDemand
  | cons first rest =>
      cases hFind : shell.registry.find? first with
      | none => simp [demandOfWords, hFind] at hDemand
      | some found =>
          cases hAccepts :
              found.signature.accepts rest.length with
          | false =>
              simp [demandOfWords, hFind, hAccepts]
                at hDemand
          | true =>
              simp only [demandOfWords, hFind, hAccepts,
                if_true, Demand.call.injEq] at hDemand
              rcases hDemand with ⟨rfl, rfl, rfl⟩
              exact ⟨hFind, hAccepts⟩

theorem words_of_demandOfWords_eq_call
    {words : List String}
    (hDemand :
      shell.demandOfWords words = .call command name args) :
    words = name :: args := by
  cases words with
  | nil => cases hDemand
  | cons first rest =>
      simp only [demandOfWords] at hDemand
      split at hDemand
      · cases hDemand
      · split at hDemand
        · cases hDemand
          rfl
        · cases hDemand

theorem find?_of_demand_eq_call
    {text : String}
    (hDemand : shell.demand text = .call command name args) :
    shell.registry.find? name = some command ∧
      command.signature.accepts args.length = true := by
  unfold demand at hDemand
  cases hScan : Scan.ofLine text with
  | error fault => simp [hScan] at hDemand
  | ok scan =>
      rw [hScan] at hDemand
      exact find?_of_demandOfWords_eq_call hDemand

/- The words of a call are those of the text. -/
theorem exists_scan_of_demand_eq_call
    {text : String}
    (hDemand : shell.demand text = .call command name args) :
    ∃ scan,
      Scan.ofLine text = .ok scan ∧
        scan.words = name :: args := by
  unfold demand at hDemand
  cases hScan : Scan.ofLine text with
  | error fault => simp [hScan] at hDemand
  | ok scan =>
      rw [hScan] at hDemand
      exact
        ⟨scan, rfl, words_of_demandOfWords_eq_call hDemand⟩

end Shell

end LineShell

------------------------------------------------------------
-- Evaluation runs the plan
------------------------------------------------------------

namespace LineShell

namespace Shell

@[simp]
theorem finish_none :
    finish none = fun output world =>
      ⟨.success output, world, []⟩ :=
  rfl

@[simp]
theorem finish_some
    (target : Target) :
    finish (some target) = write target.mode target.path :=
  rfl

/- A plan of one stage without a target is that stage. -/
theorem runPlan_single
    (shell : Shell)
    (text : String)
    (input : Option String)
    (toUser : Bool)
    (world : World) :
    shell.runPlan toUser ⟨[⟨text, none⟩], none⟩ input
        world =
      shell.runText text input toUser world := by
  have hStage :
      shell.runStage toUser ⟨text, none⟩ input world =
        shell.runText text input toUser world := by
    simp [runStage, Stage.isFinal, Stage.opening]
  unfold runPlan
  simp only [runStages, finish_none]
  rw [Run.andThen_success, Run.andThen_success, hStage]

/- The first stage of a plan runs, and then the others. -/
theorem runPlan_after
    (shell : Shell)
    (toUser : Bool)
    (plan : Plan)
    (stage : Stage)
    (input : Option String)
    (world : World) :
    shell.runPlan toUser (plan.after stage) input world =
      (shell.runStage toUser stage input world).andThen
        (shell.runPlan toUser plan) := by
  unfold runPlan
  simp only [Plan.after, runStages]
  rw [Run.andThen_assoc]

/- Stages run in two parts, one after the other. -/
theorem runStages_append
    (shell : Shell)
    (toUser : Bool)
    (front back : List Stage)
    (input : Option String)
    (world : World) :
    shell.runStages toUser (front ++ back) input world =
      (shell.runStages toUser front input world).andThen
        (shell.runStages toUser back) := by
  induction front generalizing input world with
  | nil => rfl
  | cons stage front ih =>
      have hRest :
          shell.runStages toUser (front ++ back) =
            fun output next =>
              (shell.runStages toUser front output
                next).andThen (shell.runStages toUser back) := by
        funext output next
        exact ih output next
      rw [List.cons_append, runStages, runStages, hRest,
        Run.andThen_assoc]

/- A stage with a redirect behind it runs and then writes. -/
theorem runPlan_redirect
    (shell : Shell)
    (toUser : Bool)
    (stage : Stage)
    (target : Target)
    (input : Option String)
    (world : World) :
    shell.runPlan toUser ⟨[stage], some target⟩ input
        world =
      (shell.runStage toUser stage input world).andThen
        (write target.mode target.path) := by
  unfold runPlan
  simp only [runStages, finish_some]
  rw [Run.andThen_success]

/- What stands before an operator is not for the user. -/
theorem runStage_of_cut
    (shell : Shell)
    (toUser : Bool)
    (text line : String)
    (kind : Directive.Kind)
    (input : Option String)
    (world : World) :
    shell.runStage toUser ⟨text, some (line, kind)⟩ input
        world =
      (shell.runText text input false world).after
        [.recognized line kind] := by
  simp [runStage, Stage.isFinal, Stage.opening]

/-
  To evaluate a line is to run the stages into which it is
  cut, and then to write to its target.
-/
theorem evaluateFor_of_cuts
    {shell : Shell}
    {line : String}
    {plan : Plan}
    (hCuts : Plan.Cuts line plan)
    (input : Option String)
    (toUser : Bool)
    (world : World) :
    shell.evaluateFor line input toUser world =
      shell.runPlan toUser plan input world := by
  induction hCuts generalizing input world with
  | whole hWhole =>
      rw [runPlan_single]
      exact evaluateFor_of_undivided input toUser world
        hWhole
  | pipe hDivided hRest ih =>
      -- The left side of a pipe is a stage: it holds no
      -- operator of its own.
      rw [evaluateFor_of_pipeline input toUser world
          (Directive.ofLine_of_divided hDivided _),
        evaluateFor_of_undivided input false world
          hDivided.not_isDividedText_front,
        runPlan_after, runStage_of_cut, Run.after_andThen]
      congr 2
      funext output next
      exact ih output next
  | @redirect line front rest mode hDivided =>
      rw [evaluateFor_of_redirect input toUser world
          (Directive.ofLine_of_redirection hDivided _),
        evaluateFor_of_undivided input false world
          hDivided.not_isDividedText_front,
        runPlan_redirect, runStage_of_cut,
        Run.after_andThen]

/-
  Evaluating a line is a loop over its stages. The grammar
  cuts the line into exactly one plan, and to evaluate the
  line is to run that plan: the outcomes, the worlds and the
  records are the same.
-/
theorem evaluate_eq_runPlan
    (shell : Shell)
    (line : String)
    (input : Option String)
    (world : World) :
    (∀ plan, Plan.Cuts line plan ↔ plan = Plan.ofLine line) ∧
      shell.evaluate line input world =
        shell.runPlan shell.interactive (Plan.ofLine line)
          input world := by
  constructor
  · intro plan
    exact Plan.cuts_iff
  · exact evaluateFor_of_cuts (Plan.cuts_ofLine line) input
      shell.interactive world

end Shell

end LineShell

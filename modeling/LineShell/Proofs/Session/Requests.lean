import LineShell.Proofs.Session.CurrentDirectory
import LineShell.Proofs.Session.Redirect
import LineShell.Proofs.Session.Replacing

/-
  Where commands take a session. Of all directories that the
  commands of a line ask to go to, the last one counts that
  a successful command with leave to go anywhere asked for
  last. What is asked for without success or without leave
  makes no difference, and what comes after a change never
  takes it back.

  Key definitions include:
    * `Answer.TakesTo`
    * `Turn.Answers`
    * `Turn.GoesTo`
    * `Turn.Lead`
    * `Shell.asking`
    * `Shell.FollowsRequests`

  Correctness is proven by:
    * `Shell.directories_enter_cases`
    * `Turn.directories_run`
    * `Shell.lead_runStages`
    * `Shell.sameEffect_asking`
    * `Shell.directory_follows_requests`
-/

------------------------------------------------------------
-- Where turns lead
------------------------------------------------------------

namespace LineShell

/-
  An answer of a command with a signature takes a session to
  a directory: it is a success, the command may change the
  directory, and this is the last one that it asked for.
-/
def Answer.TakesTo
    (signature : Signature)
    (answer : Answer)
    (directory : String) : Prop :=
  signature.changesDirectory = true ∧
    (∃ output, answer.result = .ok output) ∧
      answer.requested.getLast? = some directory

namespace Turn

/-
  The command of a turn is entered with a number of
  arguments in its bounds, and this is its answer.
-/
def Answers
    (shell : Shell)
    (toUser : Bool)
    (turn : Turn)
    (command : Command)
    (answer : Answer) : Prop :=
  ∃ name args,
    turn.Reads (name :: args) ∧
      shell.registry.find? name = some command ∧
        ¬ command.signature.IsOutOfBounds args.length ∧
          shell.answer command args turn.input
              (toUser && turn.stage.isFinal) turn.world =
            answer

/- The answer in a turn takes the session to a directory. -/
def GoesTo
    (shell : Shell)
    (toUser : Bool)
    (turn : Turn)
    (directory : String) : Prop :=
  ∃ command answer,
    turn.Answers shell toUser command answer ∧
      answer.TakesTo command.signature directory

/- A turn goes nowhere. -/
def Stays
    (shell : Shell)
    (toUser : Bool)
    (turn : Turn) : Prop :=
  ∀ directory, ¬ turn.GoesTo shell toUser directory

/-
  Turns lead from some directories to others: the current
  one becomes the one to which the last turn goes that goes
  anywhere, and without such a turn it stays the same. The
  way home stays the same in any case.
-/
structure Lead
    (shell : Shell)
    (toUser : Bool)
    (turns : List Turn)
    (before after : Directories) : Prop where
  home_eq : after.home = before.home
  current :
    (∃ front turn back,
      turns = front ++ turn :: back ∧
        turn.GoesTo shell toUser after.current ∧
          ∀ later ∈ back, later.Stays shell toUser) ∨
      ((∀ turn ∈ turns, turn.Stays shell toUser) ∧
        after.current = before.current)

namespace Lead

variable
    {shell : Shell}
    {toUser : Bool}
    {turn : Turn}
    {rest : List Turn}
    {before between after : Directories}

/- No turns lead nowhere. -/
theorem nil
    (directories : Directories) :
    Lead shell toUser [] directories directories := by
  refine ⟨rfl, Or.inr ⟨?_, rfl⟩⟩
  intro turn hMem
  cases hMem

/- A turn that goes anywhere and the turns after it. -/
theorem cons_of_goesTo
    (hTurn : turn.GoesTo shell toUser between.current)
    (hHome : between.home = before.home)
    (hRest : Lead shell toUser rest between after) :
    Lead shell toUser (turn :: rest) before after := by
  rcases hRest with
    ⟨hRestHome, ⟨front, last, back, hTurns, hLast, hBack⟩ |
      ⟨hStay, hCurrent⟩⟩
  · refine ⟨hRestHome.trans hHome, Or.inl ?_⟩
    refine ⟨turn :: front, last, back, ?_, hLast, hBack⟩
    rw [hTurns, List.cons_append]
  · refine ⟨hRestHome.trans hHome, Or.inl ?_⟩
    refine ⟨[], turn, rest, rfl, ?_, hStay⟩
    rw [hCurrent]
    exact hTurn

/- A turn that goes nowhere and the turns after it. -/
theorem cons_of_stays
    (hTurn : turn.Stays shell toUser)
    (hRest : Lead shell toUser rest before after) :
    Lead shell toUser (turn :: rest) before after := by
  rcases hRest with
    ⟨hHome, ⟨front, last, back, hTurns, hLast, hBack⟩ |
      ⟨hStay, hCurrent⟩⟩
  · refine ⟨hHome, Or.inl ?_⟩
    refine ⟨turn :: front, last, back, ?_, hLast, hBack⟩
    rw [hTurns, List.cons_append]
  · refine ⟨hHome, Or.inr ⟨?_, hCurrent⟩⟩
    intro other hMem
    rcases List.mem_cons.1 hMem with rfl | hMem
    · exact hTurn
    · exact hStay other hMem

end Lead

end Turn

end LineShell

------------------------------------------------------------
-- What a turn does with requests
------------------------------------------------------------

namespace LineShell

namespace Shell

variable
    {shell : Shell}
    {command : Command}
    {name : String}
    {args : List String}

/-
  A command leaves the current directory to which its answer
  takes the session, or the one that it found.
-/
theorem directories_enter_cases
    (shell : Shell)
    (command : Command)
    (args : List String)
    (input : Option String)
    (toUser : Bool)
    (world : World) :
    (∃ directory,
      (shell.answer command args input toUser
          world).TakesTo command.signature directory ∧
        (shell.enter command args input toUser
            world).world.directories =
          { world.directories with current := directory }) ∨
      ((∀ directory,
        ¬ (shell.answer command args input toUser
            world).TakesTo command.signature directory) ∧
        (shell.enter command args input toUser
            world).world.directories =
          world.directories) := by
  by_cases hLeave : command.signature.changesDirectory = true
  · cases hAnswer :
        shell.answer command args input toUser world with
    | mk files requested result =>
        cases result with
        | error fault =>
            rw [enter_of_error hAnswer]
            refine Or.inr ⟨?_, rfl⟩
            rintro directory ⟨_, ⟨output, hResult⟩, _⟩
            cases hResult
        | ok output =>
            rw [enter_of_ok hAnswer]
            unfold applyMove
            cases hLast : requested.getLast? with
            | none =>
                refine Or.inr ⟨?_, rfl⟩
                rintro directory ⟨_, _, hSome⟩
                rw [hLast] at hSome
                cases hSome
            | some directory =>
                refine
                  Or.inl
                    ⟨directory, ⟨hLeave, ⟨output, rfl⟩, hLast⟩,
                      ?_⟩
                simp [hLeave]
  · refine Or.inr ⟨?_, ?_⟩
    · rintro directory ⟨hTrue, _⟩
      exact hLeave hTrue
    · exact directories_enter (by simpa using hLeave)

end Shell

namespace Turn

variable
    {shell : Shell}
    {toUser : Bool}
    {turn : Turn}

/- A command answers in a turn when the turn calls it. -/
theorem answers_iff
    {command : Command}
    {answer : Answer} :
    turn.Answers shell toUser command answer ↔
      ∃ name args,
        shell.demand turn.stage.text =
            .call command name args ∧
          shell.answer command args turn.input
              (toUser && turn.stage.isFinal) turn.world =
            answer := by
  constructor
  · rintro ⟨name, args, hReads, hFind, hBounds, hAnswer⟩
    refine ⟨name, args, ?_, hAnswer⟩
    have hAccepts := Signature.accepts_iff.2 hBounds
    rw [demand_of_reads hReads]
    simp [Shell.demandOfWords, hFind, hAccepts]
  · rintro ⟨name, args, hDemand, hAnswer⟩
    rcases Shell.find?_of_demand_eq_call hDemand with
      ⟨hFind, hAccepts⟩
    exact
      ⟨name, args, Shell.exists_scan_of_demand_eq_call hDemand,
        hFind, Signature.accepts_iff.1 hAccepts, hAnswer⟩

/- A turn that calls nothing goes nowhere. -/
theorem stays_of_not_call
    (hNone :
      ∀ command name args,
        shell.demand turn.stage.text ≠
          .call command name args) :
    turn.Stays shell toUser := by
  rintro directory ⟨command, answer, hAnswers, _⟩
  rcases answers_iff.1 hAnswers with ⟨name, args, hDemand, _⟩
  exact hNone command name args hDemand

/- A turn with a command goes where the answer takes it. -/
theorem goesTo_iff_of_call
    {command : Command}
    {name : String}
    {args : List String}
    (hDemand :
      shell.demand turn.stage.text =
        .call command name args)
    (directory : String) :
    turn.GoesTo shell toUser directory ↔
      (shell.answer command args turn.input
          (toUser && turn.stage.isFinal)
          turn.world).TakesTo command.signature
        directory := by
  constructor
  · rintro ⟨other, answer, hAnswers, hTakes⟩
    rcases answers_iff.1 hAnswers with ⟨_, _, hOther, rfl⟩
    rw [hDemand] at hOther
    cases hOther
    exact hTakes
  · intro hTakes
    exact
      ⟨command, _, answers_iff.2 ⟨name, args, hDemand, rfl⟩,
        hTakes⟩

/- A turn leaves the current directory to which it goes. -/
theorem directories_run
    (shell : Shell)
    (toUser : Bool)
    (turn : Turn) :
    (∃ directory,
      turn.GoesTo shell toUser directory ∧
        (turn.run shell toUser).world.directories =
          { turn.world.directories with
            current := directory }) ∨
      (turn.Stays shell toUser ∧
        (turn.run shell toUser).world.directories =
          turn.world.directories) := by
  have hWorld :
      (turn.run shell toUser).world =
        (shell.runText turn.stage.text turn.input
          (toUser && turn.stage.isFinal)
          turn.world).world :=
    rfl
  rw [hWorld]
  unfold Shell.runText
  cases hDemand : shell.demand turn.stage.text with
  | unclosed fault =>
      exact Or.inr ⟨stays_of_not_call (by simp [hDemand]), rfl⟩
  | nothing =>
      exact Or.inr ⟨stays_of_not_call (by simp [hDemand]), rfl⟩
  | unknown name =>
      exact Or.inr ⟨stays_of_not_call (by simp [hDemand]), rfl⟩
  | miscounted command name args =>
      exact Or.inr ⟨stays_of_not_call (by simp [hDemand]), rfl⟩
  | call command name args =>
      simp only [Run.world_after]
      rcases Shell.directories_enter_cases shell command args
          turn.input (toUser && turn.stage.isFinal)
          turn.world with
        ⟨directory, hTakes, hMoved⟩ | ⟨hNone, hSame⟩
      · refine Or.inl ⟨directory, ?_, hMoved⟩
        exact (goesTo_iff_of_call hDemand directory).2 hTakes
      · refine Or.inr ⟨?_, hSame⟩
        intro directory hGoes
        exact hNone directory
          ((goesTo_iff_of_call hDemand directory).1 hGoes)

end Turn

end LineShell

------------------------------------------------------------
-- Stages, lines and their targets
------------------------------------------------------------

namespace LineShell

namespace Shell

/-
  Stages leave the directories to which their turns lead,
  and each turn finds those to which the turns before it
  lead.
-/
theorem lead_runStages
    (shell : Shell)
    (toUser : Bool)
    (stages : List Stage)
    (input : Option String)
    (world : World) :
    (∀ front turn back,
      shell.turns toUser stages input world =
          front ++ turn :: back →
        Turn.Lead shell toUser front world.directories
          turn.world.directories) ∧
      Turn.Lead shell toUser
        (shell.turns toUser stages input world)
        world.directories
        (shell.runStages toUser stages input
          world).world.directories := by
  induction stages generalizing input world with
  | nil =>
      refine ⟨?_, .nil _⟩
      intro front turn back hTurns
      cases front <;> cases hTurns
  | cons stage rest ih =>
      -- What the first turn does stands before the others.
      have hCons :
          ∀ {turns after},
            Turn.Lead shell toUser turns
                (shell.runStage toUser stage input
                  world).world.directories after →
              Turn.Lead shell toUser
                (⟨stage, input, world⟩ :: turns)
                world.directories after := by
        intro turns after hLead
        rcases Turn.directories_run shell toUser
            ⟨stage, input, world⟩ with
          ⟨directory, hGoes, hMoved⟩ | ⟨hStays, hSame⟩
        · rw [Turn.run] at hMoved
          rw [hMoved] at hLead
          refine Turn.Lead.cons_of_goesTo ?_ ?_ hLead
          · exact hGoes
          · rfl
        · rw [Turn.run] at hSame
          rw [hSame] at hLead
          exact .cons_of_stays hStays hLead
      cases hSuccess :
          (shell.runStage toUser stage input
            world).outcome.isSuccess with
      | false =>
          rw [turns_of_not_isSuccess _ _ hSuccess, runStages,
            Run.andThen_of_not_isSuccess hSuccess]
          refine ⟨?_, hCons (.nil _)⟩
          intro front turn back hTurns
          cases front with
          | nil =>
              cases hTurns
              exact .nil _
          | cons first front => simp at hTurns
      | true =>
          rcases ih
              (shell.runStage toUser stage input
                world).outcome.output
              (shell.runStage toUser stage input
                world).world with
            ⟨hSeen, hEnd⟩
          rw [turns_of_isSuccess _ _ hSuccess, runStages,
            Run.andThen_of_isSuccess hSuccess]
          refine ⟨?_, hCons hEnd⟩
          intro front turn back hTurns
          cases front with
          | nil =>
              cases hTurns
              exact .nil _
          | cons first front =>
              rw [List.cons_append] at hTurns
              rcases List.cons.inj hTurns with ⟨rfl, hRest⟩
              exact hCons (hSeen front turn back hRest)

/- A line with a target writes what its stages leave. -/
theorem evaluate_of_target
    {shell : Shell}
    {line : String}
    {input : Option String}
    {world : World}
    {target : Target}
    {inner : Run}
    (hTarget : (Plan.ofLine line).target = some target)
    (hInner :
      shell.runStages shell.interactive
          (Plan.ofLine line).stages input world =
        inner)
    (hSuccess : inner.outcome.isSuccess = true) :
    shell.evaluate line input world =
      (write target.mode target.path inner.outcome.output
        inner.world).after inner.events := by
  unfold evaluate
  rw [evaluateFor_of_cuts (Plan.cuts_ofLine line)]
  unfold runPlan
  rw [hInner, Run.andThen_of_isSuccess hSuccess, hTarget,
    finish_some]

end Shell

end LineShell

------------------------------------------------------------
-- Requests that do not count
------------------------------------------------------------

namespace LineShell

/- An answer with other requests, where its own do not count. -/
def Answer.asking
    (signature : Signature)
    (others : List String)
    (answer : Answer) : Answer :=
  match answer.result with
  | .error _ => { answer with requested := others }
  | .ok _ =>
    if signature.changesDirectory then
      answer
    else
      { answer with requested := others }

/-
  A command that asks for other directories, whatever they
  may be, where it fails or has no leave to change the
  directory.
-/
def Command.asking
    (other : Command → Call → FileSystem → List String)
    (command : Command) : Command :=
  { command with
    run := fun call files =>
      (command.run call files).asking command.signature
        (other command call files) }

namespace Shell

/- A shell all of whose commands ask for other directories. -/
def asking
    (other : Command → Call → FileSystem → List String)
    (shell : Shell) : Shell :=
  { shell with
    registry :=
      shell.registry.replace (Command.asking other)
        fun _ => rfl }

variable
    {shell : Shell}
    {command : Command}
    {args : List String}
    {input : Option String}
    {toUser : Bool}
    {world : World}
    (other : Command → Call → FileSystem → List String)

theorem replaces_asking
    (shell : Shell) :
    Replaces (Command.asking other) shell
      (shell.asking other) := by
  constructor
  · intro name
    exact Registry.find?_replace (Command.asking other)
      (fun _ => rfl) shell.registry name
  · intro command
    rfl

/- A command answers as before, but for its requests. -/
theorem exists_answer_asking
    (shell : Shell)
    (command : Command)
    (args : List String)
    (input : Option String)
    (toUser : Bool)
    (world : World) :
    ∃ others,
      (shell.asking other).answer (command.asking other)
          args input toUser world =
        (shell.answer command args input toUser
          world).asking command.signature others := by
  have hSignatures :
      (shell.asking other).registry.signatures =
        shell.registry.signatures :=
    Registry.signatures_replace (Command.asking other)
      (fun _ => rfl) shell.registry
  unfold answer
  rw [hSignatures]
  exact ⟨_, rfl⟩

/- Without leave no request moves a session. -/
theorem applyMove_of_no_leave
    {signature : Signature}
    (hNoLeave : signature.changesDirectory = false)
    (first second : List String)
    (directories : Directories) :
    (applyMove signature first directories).1 =
        (applyMove signature second directories).1 ∧
      (applyMove signature first directories).2.filterMap
          Event.entry? =
        (applyMove signature second
          directories).2.filterMap Event.entry? := by
  unfold applyMove
  rw [hNoLeave]
  cases first.getLast? <;> cases second.getLast? <;>
    exact ⟨rfl, rfl⟩

/- A command that asks for others where it does not count. -/
theorem sameEffect_enter_asking
    (shell : Shell)
    (command : Command)
    (args : List String)
    (input : Option String)
    (toUser : Bool)
    (world : World) :
    ((shell.asking other).enter (command.asking other) args
        input toUser world).SameEffect
      (shell.enter command args input toUser world) := by
  rcases exists_answer_asking other shell command args input
      toUser world with
    ⟨others, hOther⟩
  cases hAnswer :
      shell.answer command args input toUser world with
  | mk files requested result =>
      rw [hAnswer] at hOther
      cases result with
      | error fault =>
          rw [enter_of_error hAnswer, enter_of_error hOther]
          exact .refl _
      | ok output =>
          cases hLeave : command.signature.changesDirectory with
          | true =>
              rw [Answer.asking, if_pos hLeave] at hOther
              rw [enter_of_ok hAnswer, enter_of_ok hOther]
              exact .refl _
          | false =>
              rw [Answer.asking,
                if_neg (by simp [hLeave])] at hOther
              rw [enter_of_ok hAnswer, enter_of_ok hOther]
              rcases applyMove_of_no_leave hLeave others
                  requested world.directories with
                ⟨hDirectories, hEntered⟩
              refine ⟨rfl, ?_, hEntered⟩
              exact congrArg (World.mk files) hDirectories

/-
  What commands ask for makes no difference to a line where
  they fail or have no leave.
-/
theorem sameEffect_asking
    (shell : Shell)
    (line : String)
    (input : Option String)
    (world : World) :
    ((shell.asking other).evaluate line input
        world).SameEffect
      (shell.evaluate line input world) := by
  apply sameEffect_of_replaces (replaces_asking other shell)
  intro isFinal name command args input world hFind
  exact sameEffect_enter_asking other shell command args
    input _ world

end Shell

end LineShell

------------------------------------------------------------
-- The directory after a line
------------------------------------------------------------

namespace LineShell

namespace Shell

/-
  A line follows the requests of its commands. Each turn
  finds the directories to which the turns before it lead.
  Where all turns lead the stages end, the target is read,
  and the line ends, whether it succeeds or not. Requests of
  a command that fails or has no leave have no effect.
-/
structure FollowsRequests
    (shell : Shell)
    (line : String)
    (input : Option String)
    (world : World) : Prop where
  found :
    ∀ front turn back,
      shell.turns shell.interactive (Plan.ofLine line).stages
            input world =
          front ++ turn :: back →
        Turn.Lead shell shell.interactive front
          world.directories turn.world.directories
  stages_left :
    Turn.Lead shell shell.interactive
      (shell.turns shell.interactive
        (Plan.ofLine line).stages input world)
      world.directories
      (shell.runStages shell.interactive
        (Plan.ofLine line).stages input
        world).world.directories
  target_read :
    ∀ target,
      (Plan.ofLine line).target = some target →
        (shell.runStages shell.interactive
            (Plan.ofLine line).stages input
            world).outcome.isSuccess = true →
          (shell.runStages shell.interactive
              (Plan.ofLine line).stages input
              world).IsRedirected target
            (shell.evaluate line input world)
  left :
    Turn.Lead shell shell.interactive
      (shell.turns shell.interactive
        (Plan.ofLine line).stages input world)
      world.directories
      (shell.evaluate line input world).world.directories
  idle :
    ∀ other,
      ((shell.asking other).evaluate line input
          world).SameEffect
        (shell.evaluate line input world)

/-
  Every line follows the requests of its commands, however
  it ends.
-/
theorem directory_follows_requests
    (shell : Shell)
    (line : String)
    (input : Option String)
    (world : World) :
    shell.FollowsRequests line input world := by
  have hStages :=
    lead_runStages shell shell.interactive
      (Plan.ofLine line).stages input world
  constructor
  · exact hStages.1
  · exact hStages.2
  · intro target hTarget hSuccess
    rw [evaluate_of_target hTarget rfl hSuccess]
    exact (isRedirected_write _ target).after _
  · rw [directories_evaluate]
    exact hStages.2
  · intro other
    exact sameEffect_asking other shell line input world

end Shell

end LineShell

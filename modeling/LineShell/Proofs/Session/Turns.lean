import LineShell.Proofs.Session.Stages

/-
  The turns of a plan: its stages in the moments at which
  the loop reaches them. The last turn decides how the
  stages end, and every turn before it was a success.

  Key definitions include:
    * `Turn`
    * `Turn.run`
    * `Shell.turns`
    * `Shell.IsLastTurn`

  Correctness is proven by:
    * `Shell.exists_isLastTurn`
    * `Shell.events_runStages`
-/

------------------------------------------------------------
-- Turns
------------------------------------------------------------

namespace LineShell

/-
  A stage when its turn comes, with the input that it gets
  and the world that it finds.
-/
structure Turn where
  stage : Stage
  input : Option String
  world : World

namespace Turn

/- What happens in a turn. -/
def run
    (shell : Shell)
    (toUser : Bool)
    (turn : Turn) : Run :=
  shell.runStage toUser turn.stage turn.input turn.world

end Turn

namespace Shell

/- The turns that are reached, from left to right. -/
def turns
    (shell : Shell)
    (toUser : Bool) :
    List Stage → Option String → World → List Turn
  | [], _, _ => []
  | stage :: rest, input, world =>
    let turn : Turn := ⟨stage, input, world⟩
    let run := turn.run shell toUser
    if run.outcome.isSuccess then
      turn ::
        turns shell toUser rest run.outcome.output run.world
    else
      [turn]

variable
    (shell : Shell)
    (toUser : Bool)

theorem turns_of_isSuccess
    {stage : Stage}
    {input : Option String}
    {world : World}
    (hSuccess :
      (shell.runStage toUser stage input
        world).outcome.isSuccess = true)
    (rest : List Stage) :
    shell.turns toUser (stage :: rest) input world =
      ⟨stage, input, world⟩ ::
        shell.turns toUser rest
          (shell.runStage toUser stage input
            world).outcome.output
          (shell.runStage toUser stage input
            world).world := by
  simp [turns, Turn.run, hSuccess]

theorem turns_of_not_isSuccess
    {stage : Stage}
    {input : Option String}
    {world : World}
    (hFailure :
      (shell.runStage toUser stage input
        world).outcome.isSuccess = false)
    (rest : List Stage) :
    shell.turns toUser (stage :: rest) input world =
      [⟨stage, input, world⟩] := by
  simp [turns, Turn.run, hFailure]

/-
  A turn is the last one: the turns before it succeeded, it
  leaves behind what the stages leave, and if it succeeds
  every stage had its turn.
-/
structure IsLastTurn
    (shell : Shell)
    (toUser : Bool)
    (stages : List Stage)
    (input : Option String)
    (world : World)
    (front : List Turn)
    (turn : Turn) : Prop where
  reached :
    shell.turns toUser stages input world = front ++ [turn]
  front_succeeds :
    ∀ earlier ∈ front,
      (earlier.run shell toUser).outcome.isSuccess = true
  outcome_eq :
    (shell.runStages toUser stages input world).outcome =
      (turn.run shell toUser).outcome
  world_eq :
    (shell.runStages toUser stages input world).world =
      (turn.run shell toUser).world
  complete :
    (turn.run shell toUser).outcome.isSuccess = true →
      (shell.turns toUser stages input world).map
          Turn.stage =
        stages

/- A stage that fails is the last one that is reached. -/
theorem isLastTurn_of_not_isSuccess
    {stage : Stage}
    {input : Option String}
    {world : World}
    (hFailure :
      (shell.runStage toUser stage input
        world).outcome.isSuccess = false)
    (rest : List Stage) :
    shell.IsLastTurn toUser (stage :: rest) input world []
      ⟨stage, input, world⟩ := by
  have hRun :
      shell.runStages toUser (stage :: rest) input world =
        shell.runStage toUser stage input world := by
    rw [runStages, Run.andThen_of_not_isSuccess hFailure]
  constructor
  · exact turns_of_not_isSuccess shell toUser hFailure rest
  · simp
  · rw [hRun, Turn.run]
  · rw [hRun, Turn.run]
  · intro hSuccess
    rw [Turn.run, hFailure] at hSuccess
    cases hSuccess

/- The only stage is the last one, however it ends. -/
theorem isLastTurn_single
    (stage : Stage)
    (input : Option String)
    (world : World) :
    shell.IsLastTurn toUser [stage] input world []
      ⟨stage, input, world⟩ := by
  have hRun :
      shell.runStages toUser [stage] input world =
        shell.runStage toUser stage input world := by
    simp only [runStages]
    exact Run.andThen_success _
  have hTurns :
      shell.turns toUser [stage] input world =
        [⟨stage, input, world⟩] := by
    simp [turns]
  constructor
  · exact hTurns
  · simp
  · rw [hRun, Turn.run]
  · rw [hRun, Turn.run]
  · intro _
    rw [hTurns, List.map_singleton]

/- The last turn stays the last one behind a success. -/
theorem IsLastTurn.cons
    {shell : Shell}
    {toUser : Bool}
    {stage : Stage}
    {rest : List Stage}
    {input : Option String}
    {world : World}
    {front : List Turn}
    {turn : Turn}
    (hSuccess :
      (shell.runStage toUser stage input
        world).outcome.isSuccess = true)
    (hLast :
      shell.IsLastTurn toUser rest
        (shell.runStage toUser stage input
          world).outcome.output
        (shell.runStage toUser stage input world).world
        front turn) :
    shell.IsLastTurn toUser (stage :: rest) input world
      (⟨stage, input, world⟩ :: front) turn := by
  have hRun :
      shell.runStages toUser (stage :: rest) input world =
        (shell.runStages toUser rest
          (shell.runStage toUser stage input
            world).outcome.output
          (shell.runStage toUser stage input
            world).world).after
          (shell.runStage toUser stage input
            world).events := by
    rw [runStages, Run.andThen_of_isSuccess hSuccess]
  have hTurns :=
    turns_of_isSuccess shell toUser hSuccess rest
  constructor
  · rw [hTurns, hLast.reached, List.cons_append]
  · intro earlier hMem
    rcases List.mem_cons.1 hMem with rfl | hMem
    · exact hSuccess
    · exact hLast.front_succeeds earlier hMem
  · rw [hRun, Run.outcome_after, hLast.outcome_eq]
  · rw [hRun, Run.world_after, hLast.world_eq]
  · intro hTurn
    rw [hTurns, List.map_cons, hLast.complete hTurn]

/- Where there are stages, there is a last turn. -/
theorem exists_isLastTurn
    {stages : List Stage}
    (hSome : stages ≠ [])
    (input : Option String)
    (world : World) :
    ∃ front turn,
      shell.IsLastTurn toUser stages input world front
        turn := by
  induction stages generalizing input world with
  | nil => exact absurd rfl hSome
  | cons stage rest ih =>
      by_cases hRest : rest = []
      · subst hRest
        exact ⟨[], _, isLastTurn_single shell toUser stage
          input world⟩
      · cases hSuccess :
            (shell.runStage toUser stage input
              world).outcome.isSuccess with
        | false =>
            exact ⟨[], _, isLastTurn_of_not_isSuccess shell
              toUser hSuccess rest⟩
        | true =>
            rcases ih hRest _ _ with ⟨front, turn, hLast⟩
            exact ⟨_, turn, hLast.cons hSuccess⟩

/- What stages record is what their turns record. -/
theorem events_runStages
    (stages : List Stage)
    (input : Option String)
    (world : World) :
    (shell.runStages toUser stages input world).events =
      (shell.turns toUser stages input world).flatMap
        fun turn => (turn.run shell toUser).events := by
  induction stages generalizing input world with
  | nil => rfl
  | cons stage rest ih =>
      cases hSuccess :
          (shell.runStage toUser stage input
            world).outcome.isSuccess with
      | false =>
          rw [turns_of_not_isSuccess _ _ hSuccess, runStages,
            Run.andThen_of_not_isSuccess hSuccess]
          simp [Turn.run]
      | true =>
          rw [turns_of_isSuccess _ _ hSuccess, runStages,
            Run.andThen_of_isSuccess hSuccess]
          simp [Turn.run, ih]

end Shell

namespace Plan

/- Every line has a first stage. -/
theorem stages_ne_nil
    (line : String) :
    (ofLine line).stages ≠ [] := by
  cases hPlan : ofLine line with
  | mk stages target =>
      have hCuts := cuts_ofLine line
      rw [hPlan] at hCuts
      cases hCuts with
      | whole hWhole => simp
      | pipe hDivided hRest => simp
      | redirect hDivided => simp

end Plan

end LineShell

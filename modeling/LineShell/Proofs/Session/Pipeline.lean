import LineShell.Command.Reading
import LineShell.Proofs.Session.Stages
import LineShell.Proofs.Text.Trimmed

/-
  Pipelines in parts. A pipeline may be cut at any of its
  pipes: to evaluate it is to evaluate what stands before
  the pipe, and then what stands behind it with the text
  that the first part leaves.

  Key definitions include:
    * `Run.entered`
    * `Run.SameEffect`
    * `Plan.IsPipeline`
    * `Shell.quiet`

  Correctness is proven by:
    * `Shell.sameEffect_append_tail`
    * `Shell.evaluate_append_pipe`
-/

------------------------------------------------------------
-- Runs with the same effect
------------------------------------------------------------

namespace LineShell

/- The command that an event enters, with its arguments. -/
def Event.entry? :
    Event → Option (String × List String)
  | .entered name args => some (name, args)
  | _ => none

namespace Run

/- The commands that a run enters, in order. -/
def entered
    (run : Run) : List (String × List String) :=
  run.events.filterMap Event.entry?

/-
  Two runs have the same outcome, leave the same files and
  directories, and enter the same commands. Only what they
  record of the texts that they read may differ.
-/
structure SameEffect
    (first second : Run) : Prop where
  outcome_eq : first.outcome = second.outcome
  world_eq : first.world = second.world
  entered_eq : first.entered = second.entered

@[simp]
theorem entered_after
    (run : Run)
    (events : List Event) :
    (run.after events).entered =
      events.filterMap Event.entry? ++ run.entered := by
  simp [entered]

namespace SameEffect

variable
    {first second third : Run}

theorem refl
    (run : Run) :
    run.SameEffect run :=
  ⟨rfl, rfl, rfl⟩

theorem symm
    (hSame : first.SameEffect second) :
    second.SameEffect first :=
  ⟨hSame.outcome_eq.symm, hSame.world_eq.symm,
    hSame.entered_eq.symm⟩

theorem trans
    (hFirst : first.SameEffect second)
    (hSecond : second.SameEffect third) :
    first.SameEffect third :=
  ⟨hFirst.outcome_eq.trans hSecond.outcome_eq,
    hFirst.world_eq.trans hSecond.world_eq,
    hFirst.entered_eq.trans hSecond.entered_eq⟩

/- The directive of a text enters no command. -/
theorem after_recognized
    (run : Run)
    (text : String)
    (kind : Directive.Kind) :
    (run.after [.recognized text kind]).SameEffect run :=
  ⟨rfl, rfl, rfl⟩

theorem after
    (hSame : first.SameEffect second)
    (events : List Event) :
    (first.after events).SameEffect
      (second.after events) := by
  refine ⟨hSame.outcome_eq, hSame.world_eq, ?_⟩
  rw [entered_after, entered_after, hSame.entered_eq]

/- Runs that go on in the same way have the same effect. -/
theorem andThen
    {next other : Option String → World → Run}
    (hSame : first.SameEffect second)
    (hNext :
      ∀ output world,
        (next output world).SameEffect
          (other output world)) :
    (first.andThen next).SameEffect
      (second.andThen other) := by
  have hOutcome := hSame.outcome_eq
  cases hSuccess : second.outcome.isSuccess with
  | true =>
      rw [andThen_of_isSuccess hSuccess,
        andThen_of_isSuccess (hOutcome ▸ hSuccess),
        hOutcome, hSame.world_eq]
      have hRest :=
        hNext second.outcome.output second.world
      refine ⟨hRest.outcome_eq, hRest.world_eq, ?_⟩
      have hEntered :
          first.events.filterMap Event.entry? =
            second.events.filterMap Event.entry? :=
        hSame.entered_eq
      rw [entered_after, entered_after, hEntered,
        hRest.entered_eq]
  | false =>
      rw [andThen_of_not_isSuccess hSuccess,
        andThen_of_not_isSuccess (hOutcome ▸ hSuccess)]
      exact hSame

end SameEffect

end Run

end LineShell

------------------------------------------------------------
-- Shells without a user
------------------------------------------------------------

namespace LineShell

namespace Shell

/- A shell none of whose texts goes to a user. -/
def quiet
    (shell : Shell) : Shell :=
  { shell with interactive := false }

variable
    (shell : Shell)

theorem runStages_quiet
    (toUser : Bool)
    (stages : List Stage)
    (input : Option String)
    (world : World) :
    shell.quiet.runStages toUser stages input world =
      shell.runStages toUser stages input world := by
  induction stages generalizing input world with
  | nil => rfl
  | cons stage rest ih =>
      have hStage :
          shell.quiet.runStage toUser stage input world =
            shell.runStage toUser stage input world :=
        rfl
      have hRest :
          shell.quiet.runStages toUser rest =
            shell.runStages toUser rest := by
        funext output next
        exact ih output next
      rw [runStages, runStages, hStage, hRest]

/- To evaluate quietly is to show nothing to a user. -/
theorem evaluate_quiet
    (line : String)
    (input : Option String)
    (world : World) :
    shell.quiet.evaluate line input world =
      shell.evaluateFor line input false world := by
  have hCuts := Plan.cuts_ofLine line
  unfold evaluate
  rw [evaluateFor_of_cuts hCuts, evaluateFor_of_cuts hCuts]
  unfold runPlan
  rw [runStages_quiet]
  rfl

end Shell

end LineShell

------------------------------------------------------------
-- Texts behind a pipeline
------------------------------------------------------------

namespace LineShell

namespace Text

/-
  The blanks at the start of two texts are those of the
  first one, and those of the second if there is no more.
-/
theorem trimStart_append_cases
    (text tail : String) :
    (trimStart text = "" ∧
        trimStart (text ++ tail) = trimStart tail) ∨
      trimStart (text ++ tail) =
        trimStart text ++ tail := by
  cases hText : text.toList.dropWhile isBlank with
  | nil =>
      apply Or.inl
      simp [trimStart, List.dropWhile_append, hText]
  | cons c rest =>
      apply Or.inr
      apply String.toList_inj.1
      simp [trimStart, List.dropWhile_append, hText]

end Text

namespace Plan

/-
  A plan is that of a pipeline: it has no target, and every
  quote is closed in each of its stages.
-/
structure IsPipeline
    (plan : Plan) : Prop where
  no_target : plan.target = none
  closed :
    ∀ stage ∈ plan.stages, IsCleanText stage.text.toList

end Plan

namespace Shell

variable
    {shell : Shell}
    {toUser : Bool}
    {tail : String}
    {c : Char}
    {next : Option String → World → Run}

/-
  If each clean text with a tail behind it is evaluated as
  the text and then goes on, and the tail without its blanks
  as no text, then each pipeline is evaluated so.
-/
theorem sameEffect_append_tail
    (hStage :
      ∀ text input world,
        IsCleanText text.toList →
          (shell.evaluateFor (text ++ tail) input toUser
              world).SameEffect
            ((shell.evaluateFor text input false
              world).andThen next))
    (hNothing :
      ∀ input world,
        (shell.evaluateFor (Text.trimStart tail) input
            toUser world).SameEffect
          ((shell.evaluateFor "" input false world).andThen
            next))
    {line : String}
    {plan : Plan}
    (hCuts : Plan.Cuts line plan)
    (hPipeline : plan.IsPipeline)
    (input : Option String)
    (world : World) :
    (shell.evaluateFor (line ++ tail) input toUser
        world).SameEffect
      ((shell.evaluateFor line input false world).andThen
        next) := by
  induction hCuts generalizing input world with
  | @whole line hWhole =>
      have hClean : IsCleanText line.toList :=
        hPipeline.closed ⟨line, none⟩ (by simp)
      exact hStage line input world hClean
  | @pipe line front rest plan hDivided hRest ih =>
      have hPlan : plan.IsPipeline := by
        refine ⟨hPipeline.no_target, ?_⟩
        intro stage hMem
        exact hPipeline.closed stage
          (List.mem_cons_of_mem _ hMem)
      have hJoined :
          DividedAt (line ++ tail) front (rest ++ tail)
            .pipe := by
        refine ⟨hDivided.front_clean, by simp, ?_⟩
        rw [hDivided.line_eq]
        simp only [String.append_assoc]
      have hBehind :
          ∀ output world,
            (shell.evaluateFor
                (Text.trimStart (rest ++ tail)) output
                toUser world).SameEffect
              ((shell.evaluateFor (Text.trimStart rest)
                output false world).andThen next) := by
        intro output world
        rcases Text.trimStart_append_cases rest tail with
          ⟨hNone, hTrim⟩ | hTrim
        · rw [hTrim, hNone]
          exact hNothing output world
        · rw [hTrim]
          exact ih hPlan output world
      -- The tail only ever meets the last stage: the first
      -- pipe cuts both lines at the same place.
      rw [evaluateFor_of_pipeline input toUser world
          (Directive.ofLine_of_divided hJoined _),
        evaluateFor_of_pipeline input false world
          (Directive.ofLine_of_divided hDivided _),
        Run.after_andThen, Run.andThen_assoc]
      refine (Run.SameEffect.after_recognized _ _ _).trans
        (Run.SameEffect.trans ?_
          (Run.SameEffect.after_recognized _ _ _).symm)
      exact (Run.SameEffect.refl _).andThen hBehind
  | redirect hDivided => cases hPipeline.no_target

/- A tail that starts with no blank is behind a text. -/
theorem sameEffect_append
    (hHead : tail.toList.head? = some c)
    (hBlank : Text.isBlank c = false)
    (hStage :
      ∀ text input world,
        IsCleanText text.toList →
          (shell.evaluateFor (text ++ tail) input toUser
              world).SameEffect
            ((shell.evaluateFor text input false
              world).andThen next))
    {line : String}
    {plan : Plan}
    (hCuts : Plan.Cuts line plan)
    (hPipeline : plan.IsPipeline)
    (input : Option String)
    (world : World) :
    (shell.evaluateFor (line ++ tail) input toUser
        world).SameEffect
      ((shell.evaluateFor line input false world).andThen
        next) := by
  have hTrim : Text.trimStart tail = "" ++ tail := by
    rw [Text.trimStart_of_head hHead hBlank,
      String.empty_append]
  apply sameEffect_append_tail hStage ?_ hCuts hPipeline
  intro input world
  rw [hTrim]
  exact hStage "" input world ⟨[], .nil, rfl⟩

/-
  A pipeline may be cut at any of its pipes. With a pipe and
  a text behind it, it is evaluated for no user, with the
  same input; if that fails, this is all, and if not, the
  text without the blanks at its start is evaluated with
  what the pipeline leaves. The outcomes, the files, the
  directories and the commands that are entered are the
  same.
-/
theorem evaluate_append_pipe
    (shell : Shell)
    {line : String}
    (hPipeline : (Plan.ofLine line).IsPipeline)
    (rest : String)
    (input : Option String)
    (world : World) :
    (shell.evaluate (line ++ "|" ++ rest) input
        world).SameEffect
      ((shell.quiet.evaluate line input world).andThen
        fun output next =>
          shell.evaluate (Text.trimStart rest) output
            next) := by
  have hHead : ("|" ++ rest).toList.head? = some '|' := by
    rw [String.toList_append]
    rfl
  rw [evaluate_quiet, String.append_assoc]
  refine sameEffect_append hHead (by decide) ?_
    (Plan.cuts_ofLine line) hPipeline input world
  intro text input world hClean
  have hDivided :
      DividedAt (text ++ ("|" ++ rest)) text rest .pipe :=
    ⟨hClean, by simp, rfl⟩
  rw [evaluateFor_of_pipeline input shell.interactive world
    (Directive.ofLine_of_divided hDivided _)]
  exact Run.SameEffect.after_recognized _ _ _

/- A row of three stages may be cut at its second pipe. -/
theorem three_stages_cut_at_second_pipe :
    (Plan.ofLine "cat| 'cat' ").IsPipeline ∧
      (Shell.evaluate
          ⟨Registry.empty.insert Reading.cat, true⟩
          "cat| 'cat' |  cat" (some "x")
          ⟨FileSystem.empty, ⟨"/", "/"⟩⟩).SameEffect
        ((Shell.evaluate
            ⟨Registry.empty.insert Reading.cat, false⟩
            "cat| 'cat' " (some "x")
            ⟨FileSystem.empty, ⟨"/", "/"⟩⟩).andThen
          (Shell.evaluate
            ⟨Registry.empty.insert Reading.cat, true⟩
            "cat")) ∧
      (Shell.evaluate
          ⟨Registry.empty.insert Reading.cat, true⟩
          "cat| 'cat' |  cat" (some "x")
          ⟨FileSystem.empty, ⟨"/", "/"⟩⟩).outcome =
        .success (some "x") := by
  have hPlan :
      Plan.ofLine "cat| 'cat' " =
        ⟨[⟨"cat", some ("cat| 'cat' ", .pipeline)⟩,
          ⟨"'cat' ", none⟩], none⟩ := by
    decide +kernel
  have hPipeline :
      (Plan.ofLine "cat| 'cat' ").IsPipeline := by
    rw [hPlan]
    refine ⟨rfl, ?_⟩
    intro stage hMem
    simp only [List.mem_cons, List.not_mem_nil, or_false]
      at hMem
    rcases hMem with rfl | rfl
    · exact
        ⟨[.bare ['c', 'a', 't']],
          .lastBare (by decide)
            (by simp [IsPlain, isQuote, singleQuote,
              doubleQuote]),
          rfl⟩
    · exact
        ⟨[.quoted [] singleQuote ['c', 'a', 't'], .space],
          .quoted (by simp) (by decide) (by decide)
            (.space .nil), rfl⟩
  exact
    ⟨hPipeline,
      evaluate_append_pipe
        ⟨Registry.empty.insert Reading.cat, true⟩
        hPipeline "  cat" (some "x")
        ⟨FileSystem.empty, ⟨"/", "/"⟩⟩,
      by decide +kernel⟩

end Shell

end LineShell

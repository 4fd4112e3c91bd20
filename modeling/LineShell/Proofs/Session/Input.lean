import LineShell.Proofs.Command.Standard
import LineShell.Proofs.Session.Status

/-
  What becomes of the text that a stage is given. It makes
  no difference to anything unless the stage calls a command
  that takes input. Of the standard commands these are `cat`
  and `more`, and they look at it only if no file is named.

  Key definitions include:
    * `Shell.TakesInput`
    * `Stage.ReadsAlone`
    * `Shell.HasNoUse`

  Correctness is proven by:
    * `Shell.ignoresInput_of_hasNoUse`
    * `Shell.evaluate_of_ignoresInput`
    * `Shell.input_reaches_takers_only`
-/

------------------------------------------------------------
-- Stages and their input
------------------------------------------------------------

namespace LineShell

namespace Stage

/- The text of a stage has these words. -/
def HasWords
    (stage : Stage)
    (words : List String) : Prop :=
  ∃ scan,
    Scan.ofLine stage.text = .ok scan ∧ scan.words = words

/- A stage is one of the two readers, with no file named. -/
def ReadsAlone
    (stage : Stage) : Prop :=
  stage.HasWords ["cat"] ∨ stage.HasWords ["more"]

end Stage

namespace Shell

/-
  A stage calls a registered command that takes input, with
  a number of arguments in its bounds.
-/
def TakesInput
    (shell : Shell)
    (stage : Stage) : Prop :=
  ∃ name args command,
    stage.HasWords (name :: args) ∧
      shell.registry.find? name = some command ∧
        ¬ command.signature.IsOutOfBounds args.length ∧
          command.signature.acceptsInput = true

/-
  A stage has no use for its input: its command takes none,
  or the commands are the standard ones, and it is not one of
  their readers with no file named.
-/
inductive HasNoUse
    (shell : Shell)
    (stage : Stage) : Prop
  | takesNone
      (hNone : ¬ shell.TakesInput stage)
  | namesFiles
      {clock : Clock}
      {settings : Settings}
      (hStandard :
        shell.registry = Registry.standard clock settings)
      (hNamed : ¬ stage.ReadsAlone)

/- A stage does the same, whatever its input is. -/
def IgnoresInput
    (shell : Shell)
    (stage : Stage) : Prop :=
  ∀ toUser input other world,
    shell.runStage toUser stage input world =
      shell.runStage toUser stage other world

end Shell

end LineShell

------------------------------------------------------------
-- Commands without a use for input
------------------------------------------------------------

namespace LineShell

/- Where files are named, they are all that is shown. -/
theorem Reading.showSource_of_args
    {call : Call}
    (hArgs : call.args ≠ [])
    (command : String)
    (files : FileSystem) :
    showSource command call files =
      ⟨files, [],
        (readEach files (call.args.map call.resolve)).map
          some⟩ := by
  unfold showSource sourceText
  cases hCase : call.args with
  | nil => exact absurd hCase hArgs
  | cons path paths => rfl

/- Two of the standard commands take input. -/
theorem Registry.readers_of_acceptsInput
    {clock : Clock}
    {settings : Settings}
    {name : String}
    {command : Command}
    (hFind :
      (standard clock settings).find? name = some command)
    (hAccepts : command.signature.acceptsInput = true) :
    name = command.name ∧
      (command = Reading.cat ∨
        command =
          Reading.more settings.pageLines none) := by
  rcases (find?_standard_iff clock settings).1 hFind with
    ⟨hMem, hName, _⟩
  have hReaders :
      (standardCommands clock settings).filter
          (·.signature.acceptsInput) =
        [Reading.cat, Reading.more settings.pageLines none] :=
    rfl
  have hReader :
      command ∈
        [Reading.cat,
          Reading.more settings.pageLines none] := by
    rw [← hReaders]
    exact List.mem_filter.2 ⟨hMem, hAccepts⟩
  exact ⟨hName.symm, by simpa using hReader⟩

namespace Shell

variable
    {shell : Shell}
    {stage : Stage}

/- A stage whose command does not look at its input. -/
theorem ignoresInput_of_calls
    (hCalls :
      ∀ command name args,
        stage.HasWords (name :: args) →
          shell.registry.find? name = some command →
            command.signature.accepts args.length = true →
              ∀ input other toUser world,
                shell.enter command args input toUser world =
                  shell.enter command args other toUser
                    world) :
    shell.IgnoresInput stage := by
  intro toUser input other world
  unfold runStage runText
  cases hDemand : shell.demand stage.text with
  | unclosed fault => rfl
  | nothing => rfl
  | unknown name => rfl
  | miscounted command name args => rfl
  | call command name args =>
      rcases find?_of_demand_eq_call hDemand with
        ⟨hFind, hAccepts⟩
      have hWords : stage.HasWords (name :: args) :=
        exists_scan_of_demand_eq_call hDemand
      dsimp only
      rw [hCalls command name args hWords hFind hAccepts
        input other]

/- A command that answers the same is entered the same. -/
theorem enter_of_answer_eq
    {command : Command}
    {args : List String}
    {input other : Option String}
    {toUser : Bool}
    {world : World}
    (hAnswer :
      shell.answer command args input toUser world =
        shell.answer command args other toUser world) :
    shell.enter command args input toUser world =
      shell.enter command args other toUser world := by
  unfold answer at hAnswer
  unfold enter
  dsimp only
  rw [hAnswer]

/- A command that takes no input is not given any. -/
theorem enter_of_takesNone
    {command : Command}
    (hNone : command.signature.acceptsInput = false)
    (args : List String)
    (input other : Option String)
    (toUser : Bool)
    (world : World) :
    shell.enter command args input toUser world =
      shell.enter command args other toUser world := by
  apply enter_of_answer_eq
  unfold answer
  rw [hNone]
  rfl

theorem ignoresInput_of_not_takesInput
    (hNone : ¬ shell.TakesInput stage) :
    shell.IgnoresInput stage := by
  apply ignoresInput_of_calls
  intro command name args hWords hFind hAccepts
  have hInput : command.signature.acceptsInput = false := by
    apply Bool.eq_false_iff.2
    intro hTakes
    exact hNone
      ⟨name, args, command, hWords, hFind,
        Signature.accepts_iff.1 hAccepts, hTakes⟩
  exact enter_of_takesNone hInput args

/- A reader that names files does not look at its input. -/
theorem answer_of_named
    {command : Command}
    {pageLines : Nat}
    (hReader :
      command = Reading.cat ∨
        command = Reading.more pageLines none)
    {args : List String}
    (hArgs : args ≠ [])
    (input other : Option String)
    (toUser : Bool)
    (world : World) :
    shell.answer command args input toUser world =
      shell.answer command args other toUser world := by
  unfold answer
  rcases hReader with rfl | rfl
  · rw [Reading.cat]
    dsimp only
    rw [Reading.showSource_of_args hArgs,
      Reading.showSource_of_args hArgs]
    rfl
  · rw [Reading.more]
    dsimp only
    rw [Reading.showSource_of_args hArgs,
      Reading.showSource_of_args hArgs]
    rfl

theorem ignoresInput_of_standard
    {clock : Clock}
    {settings : Settings}
    (hStandard :
      shell.registry = Registry.standard clock settings)
    (hNamed : ¬ stage.ReadsAlone) :
    shell.IgnoresInput stage := by
  apply ignoresInput_of_calls
  intro command name args hWords hFind hAccepts
  rw [hStandard] at hFind
  cases hInput : command.signature.acceptsInput with
  | false => exact enter_of_takesNone hInput args
  | true =>
      intro input other toUser world
      rcases Registry.readers_of_acceptsInput hFind hInput
        with ⟨rfl, hReader⟩
      apply enter_of_answer_eq
      apply answer_of_named hReader
      rintro rfl
      rcases hReader with rfl | rfl
      · exact hNamed (Or.inl hWords)
      · exact hNamed (Or.inr hWords)

theorem ignoresInput_of_hasNoUse
    (hNoUse : shell.HasNoUse stage) :
    shell.IgnoresInput stage := by
  cases hNoUse with
  | takesNone hNone =>
      exact ignoresInput_of_not_takesInput hNone
  | namesFiles hStandard hNamed =>
      exact ignoresInput_of_standard hStandard hNamed

end Shell

end LineShell

------------------------------------------------------------
-- Lines and the texts between their stages
------------------------------------------------------------

namespace LineShell

namespace Shell

variable
    {shell : Shell}
    {stage : Stage}

/- From a stage on that ignores its input all is the same. -/
theorem runPlan_of_ignoresInput
    (hIgnores : shell.IgnoresInput stage)
    (toUser : Bool)
    (back : List Stage)
    (target : Option Target)
    (input other : Option String)
    (world : World) :
    shell.runPlan toUser ⟨stage :: back, target⟩ input
        world =
      shell.runPlan toUser ⟨stage :: back, target⟩ other
        world := by
  unfold runPlan
  simp only [runStages]
  rw [hIgnores toUser input other world]

/-
  Before a stage that ignores its input the text that is
  handed on may be changed.
-/
theorem evaluate_of_ignoresInput
    {line : String}
    {front back : List Stage}
    (hStages :
      (Plan.ofLine line).stages = front ++ stage :: back)
    (hIgnores : shell.IgnoresInput stage)
    (change : Option String → Option String)
    (input : Option String)
    (world : World) :
    shell.evaluate line input world =
      (shell.runStages shell.interactive front input
        world).andThen fun output next =>
          shell.runPlan shell.interactive
            ⟨stage :: back, (Plan.ofLine line).target⟩
            (change output) next := by
  unfold evaluate
  rw [evaluateFor_of_cuts (Plan.cuts_ofLine line), runPlan,
    hStages, runStages_append, Run.andThen_assoc]
  congr 1
  funext output next
  exact runPlan_of_ignoresInput hIgnores _ _ _ _ _ _

/-
  Input reaches only those who take it. If a stage of a line
  calls no command that takes input, or is no standard reader
  that names no file, then it makes no difference to the rest
  of the line what the stages before it have printed. If it
  is the first one, then the input of the line makes no
  difference: the outcome, the world and all that is recorded
  are the same.
-/
theorem input_reaches_takers_only
    {shell : Shell}
    {line : String}
    {front back : List Stage}
    {stage : Stage}
    (hStages :
      (Plan.ofLine line).stages = front ++ stage :: back)
    (hNoUse : shell.HasNoUse stage)
    (input : Option String)
    (world : World) :
    (∀ change : Option String → Option String,
      shell.evaluate line input world =
        (shell.runStages shell.interactive front input
          world).andThen fun output next =>
            shell.runPlan shell.interactive
              ⟨stage :: back, (Plan.ofLine line).target⟩
              (change output) next) ∧
      (front = [] →
        ∀ other,
          shell.evaluate line other world =
            shell.evaluate line input world) := by
  have hIgnores := ignoresInput_of_hasNoUse hNoUse
  constructor
  · intro change
    exact evaluate_of_ignoresInput hStages hIgnores change
      input world
  · rintro rfl other
    rw [evaluate_of_ignoresInput hStages hIgnores id,
      evaluate_of_ignoresInput hStages hIgnores
        (fun _ => other)]
    rfl

/- A file that can be read. -/
def filesToRead : FileSystem where
  entries := [([⟨"n", by decide⟩], .file "x\n".toByteArray)]
  sound := by decide

/-
  A reader that names a file hides the input of its line,
  and the reader behind it is given the text of the file.
-/
theorem file_is_read_for_input :
    let shell : Shell :=
      ⟨Registry.standard Clock.unset Settings.standard, true⟩
    let world : World := ⟨filesToRead, ⟨"/", "/"⟩⟩
    let stage : Stage :=
      ⟨"cat n ", some ("cat n |more", .pipeline)⟩
    (Plan.ofLine "cat n |more").stages =
        [] ++ stage :: [⟨"more", none⟩] ∧
      ¬ stage.ReadsAlone ∧
        shell.evaluate "cat n |more" none world =
          shell.evaluate "cat n |more" (some "y\n") world ∧
        (shell.evaluate "cat n |more" (some "y\n")
            world).outcome =
          .success (some "x\n") := by
  intro shell world stage
  have hStages :
      (Plan.ofLine "cat n |more").stages =
        [] ++ stage :: [⟨"more", none⟩] := by
    decide +kernel
  have hNamed : ¬ stage.ReadsAlone := by
    have hClean :
        Pieces.IsClean
          [.bare ['c', 'a', 't'], .space, .bare ['n'],
            .space] := by
      refine .bare (by simp) ?_ (.space (.bare (by simp) ?_
        (.space .nil)))
      · simp [IsPlain, isQuote, singleQuote, doubleQuote]
      · simp [IsPlain, isQuote, singleQuote, doubleQuote]
    have hReading :
        Reading "cat n ".toList
          (.ok ⟨["cat", "n"], none⟩) :=
      .clean hClean rfl
    have hScan :
        Scan.ofLine stage.text =
          .ok ⟨["cat", "n"], none⟩ :=
      hReading.ofLine_eq
    rintro (⟨scan, hOther, hWords⟩ | ⟨scan, hOther, hWords⟩)
    · rw [hScan, Except.ok.injEq] at hOther
      subst hOther
      simp at hWords
    · rw [hScan, Except.ok.injEq] at hOther
      subst hOther
      simp at hWords
  refine ⟨hStages, hNamed, ?_, by decide +kernel⟩
  exact
    (input_reaches_takers_only hStages
      (.namesFiles rfl hNamed) (some "y\n") world).2 rfl none

end Shell

end LineShell

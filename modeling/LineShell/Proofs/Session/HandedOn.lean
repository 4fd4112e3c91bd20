import LineShell.Proofs.Session.ReadBack
import LineShell.Proofs.Session.Users

/-
  Stages that hand on what they are given. A reader that is
  called alone behind a pipeline changes neither its text nor
  its failure, and no more do any number of them. Only where
  the pipeline succeeds without a text has the first of them
  nothing to show, and fails.

  Key definitions include:
    * `Registry.HandsOn`
    * `Outcome.handedTo`

  Correctness is proven by:
    * `Run.andThen_readers`
    * `Shell.sameEffect_append_reader`
    * `Shell.evaluateFor_append_readers`
    * `Shell.readers_hand_on`
-/

------------------------------------------------------------
-- Readers and what they are handed
------------------------------------------------------------

namespace LineShell

namespace Registry

/-
  A name as a text calls a command with no argument, and this
  command shows its input.
-/
structure HandsOn
    (registry : Registry)
    (name : String) : Prop where
  alone : Scan.ofLine name = .ok ⟨[name], none⟩
  starts :
    ∃ c,
      name.toList.head? = some c ∧ Text.isBlank c = false
  shows :
    ∃ command,
      registry.find? name = some command ∧
        command.signature.accepts 0 = true ∧
          command.signature.acceptsInput = true ∧
            command.run = Reading.showSource name

theorem handsOn_standard
    (clock : Clock)
    {settings : Settings}
    {name : String}
    (hName : name = "cat" ∨ name = "more")
    (hEnabled : name ∉ settings.disabled) :
    (standard clock settings).HandsOn name := by
  rcases hName with rfl | rfl
  · refine ⟨?_, ⟨'c', rfl, by decide⟩, ?_⟩
    · apply Scan.ofLine_of_plain (by simp)
      simp [IsPlain, isQuote, singleQuote, doubleQuote]
    · exact
        ⟨Reading.cat,
          find?_cat_standard clock settings hEnabled, rfl,
          rfl, rfl⟩
  · refine ⟨?_, ⟨'m', rfl, by decide⟩, ?_⟩
    · apply Scan.ofLine_of_plain (by simp)
      simp [IsPlain, isQuote, singleQuote, doubleQuote]
    · refine
        ⟨Reading.more settings.pageLines none, ?_, rfl, rfl,
          rfl⟩
      rw [find?_standard_iff]
      refine ⟨?_, rfl, hEnabled⟩
      simp [standardCommands]

end Registry

namespace Outcome

/- What becomes of an outcome behind which a reader stands. -/
def handedTo
    (outcome : Outcome)
    (name : String) : Outcome :=
  if outcome = .success none then
    .failure .genericError
      (name ++ ": expected a file or piped input")
  else
    outcome

variable
    {outcome : Outcome}

/- A text or a failure goes through all readers. -/
theorem foldl_handedTo
    (hSome : outcome ≠ .success none)
    (readers : List String) :
    readers.foldl handedTo outcome = outcome := by
  induction readers with
  | nil => rfl
  | cons name readers ih =>
      rw [List.foldl_cons, handedTo, if_neg hSome, ih]

/- Without a text the first reader fails, and no other. -/
theorem foldl_handedTo_cons
    (name : String)
    (readers : List String) :
    (name :: readers).foldl handedTo (.success none) =
      .failure .genericError
        (name ++ ": expected a file or piped input") := by
  rw [List.foldl_cons, handedTo, if_pos rfl]
  apply foldl_handedTo
  intro hSuccess
  cases congrArg status hSuccess

end Outcome

/-
  A run that goes on to readers ends as what it hands to
  them, and they change nothing.
-/
theorem Run.andThen_readers
    {run : Run}
    {next : Option String → World → Run}
    {readers : List String}
    (hNext :
      ∀ output world,
        (next output world).outcome =
            readers.foldl Outcome.handedTo
              (.success output) ∧
          (next output world).world = world) :
    (run.andThen next).outcome =
        readers.foldl Outcome.handedTo run.outcome ∧
      (run.andThen next).world = run.world := by
  cases hSuccess : run.outcome.isSuccess with
  | true =>
      have hReaders := hNext run.outcome.output run.world
      rw [Outcome.success_output hSuccess] at hReaders
      rw [andThen_of_isSuccess hSuccess]
      exact hReaders
  | false =>
      have hSome : run.outcome ≠ .success none := by
        intro hNone
        rw [hNone] at hSuccess
        cases hSuccess
      rw [andThen_of_not_isSuccess hSuccess,
        Outcome.foldl_handedTo hSome]
      exact ⟨rfl, rfl⟩

end LineShell

------------------------------------------------------------
-- One stage behind a pipeline
------------------------------------------------------------

namespace LineShell

/- The text is clean that has its words and no operator. -/
theorem isCleanText_of_ofLine
    {text : String}
    {words : List String}
    (hScan : Scan.ofLine text = .ok ⟨words, none⟩) :
    IsCleanText text.toList := by
  cases (Scan.ofLine_eq_iff text _).1 hScan with
  | clean hClean hLine => exact ⟨_, hClean, hLine⟩

/- A clean text is a pipeline of one stage. -/
theorem Plan.isPipeline_of_isCleanText
    {text : String}
    (hClean : IsCleanText text.toList) :
    (ofLine text).IsPipeline := by
  rw [ofLine_of_whole
    (not_isDividedText_of_isCleanText hClean)]
  refine ⟨rfl, ?_⟩
  intro stage hMem
  rw [List.mem_singleton.1 hMem]
  exact hClean

namespace Shell

variable
    {shell : Shell}
    {name : String}

/- A reader alone shows its input, or has nothing to show. -/
theorem evaluateFor_of_handsOn
    (hName : shell.registry.HandsOn name)
    (input : Option String)
    (toUser : Bool)
    (world : World) :
    (shell.evaluateFor name input toUser world).outcome =
        (Outcome.success input).handedTo name ∧
      (shell.evaluateFor name input toUser world).world =
        world := by
  rcases hName.shows with
    ⟨command, hFind, hAccepts, hTakes, hRun⟩
  have hWhole :=
    not_isDividedText_of_isCleanText
      (isCleanText_of_ofLine hName.alone)
  have hDemand :
      shell.demand name = .call command name [] := by
    simp [demand, hName.alone, demandOfWords, hFind,
      hAccepts]
  rw [evaluateFor_of_undivided input toUser world hWhole,
    runText, hDemand]
  simp only [Run.outcome_after, Run.world_after, enter,
    hTakes, hRun, if_true, Reading.showSource,
    Reading.sourceText]
  cases input with
  | none => exact ⟨rfl, rfl⟩
  | some text => exact ⟨rfl, rfl⟩

/- A pipeline with a stage behind it runs and then goes on. -/
theorem sameEffect_append_stage
    {line rest : String}
    {c : Char}
    (hPipeline : (Plan.ofLine line).IsPipeline)
    (hHead : rest.toList.head? = some c)
    (hBlank : Text.isBlank c = false)
    (input : Option String)
    (toUser : Bool)
    (world : World) :
    (shell.evaluateFor (line ++ (" | " ++ rest)) input toUser
        world).SameEffect
      ((shell.evaluateFor line input false world).andThen
        fun output next =>
          shell.evaluateFor rest output toUser next) := by
  have hTail :
      " | " ++ rest = " " ++ ("|" ++ (" " ++ rest)) := by
    rw [← String.append_assoc, ← String.append_assoc]
    rfl
  have hPipe :
      ("|" ++ (" " ++ rest)).toList.head? = some '|' := by
    rw [String.toList_append]
    rfl
  rw [hTail]
  apply sameEffect_append_spaced hPipe (by decide) ?_
    hPipeline
  intro front input world hFront
  have hDivided :
      DividedAt (front ++ ("|" ++ (" " ++ rest))) front
        (" " ++ rest) .pipe :=
    ⟨hFront, by simp, rfl⟩
  have hRest : Text.trimStart (" " ++ rest) = rest := by
    rw [Text.trimStart_space_append,
      Text.trimStart_of_head hHead hBlank]
  rw [evaluateFor_of_pipeline input toUser world
    (Directive.ofLine_of_divided hDivided _), hRest]
  exact Run.SameEffect.after_recognized _ _ _

end Shell

end LineShell

------------------------------------------------------------
-- Any number of readers behind a pipeline
------------------------------------------------------------

namespace LineShell

namespace Shell

variable
    {shell : Shell}
    {name : String}

/-
  A reader behind a pipeline and a text behind the reader are
  evaluated as a line of their own. The pipeline does for a
  user what it does for the reader.
-/
theorem sameEffect_append_reader
    (hIgnores : shell.registry.IgnoresUser)
    (hName : shell.registry.HandsOn name)
    {line : String}
    (hPipeline : (Plan.ofLine line).IsPipeline)
    (rest : String)
    (input : Option String)
    (toUser : Bool)
    (world : World) :
    (shell.evaluateFor (line ++ (" | " ++ (name ++ rest)))
        input toUser world).SameEffect
      ((shell.evaluateFor line input toUser world).andThen
        fun output next =>
          shell.evaluateFor (name ++ rest) output toUser
            next) := by
  rcases hName.starts with ⟨c, hHead, hBlank⟩
  have hFirst : (name ++ rest).toList.head? = some c := by
    rw [String.toList_append, List.head?_append, hHead,
      Option.some_or]
  apply (sameEffect_append_stage hPipeline hFirst hBlank
    input toUser world).trans
  apply Run.SameEffect.andThen
  · exact sameEffect_of_ignoresUser rfl hIgnores false
      toUser line input world
  · intro output next
    exact .refl _

/-
  Behind a pipeline each reader is handed what became of it
  so far. The first reader is a pipeline of its own, with the
  others behind it.
-/
theorem evaluateFor_append_readers
    (hIgnores : shell.registry.IgnoresUser)
    {readers : List String}
    (hReaders :
      ∀ name ∈ readers, shell.registry.HandsOn name)
    {line : String}
    (hPipeline : (Plan.ofLine line).IsPipeline)
    (input : Option String)
    (toUser : Bool)
    (world : World) :
    let run := shell.evaluateFor line input toUser world
    let longer :=
      shell.evaluateFor
        (line ++ String.join (readers.map (" | " ++ ·)))
        input toUser world
    longer.outcome =
        readers.foldl Outcome.handedTo run.outcome ∧
      longer.world = run.world := by
  induction readers generalizing line input world with
  | nil => simp
  | cons name readers ih =>
      intro run longer
      have hName := hReaders name List.mem_cons_self
      have hOthers :
          ∀ other ∈ readers,
            shell.registry.HandsOn other :=
        fun other hMem =>
          hReaders other (List.mem_cons_of_mem _ hMem)
      have hLonger :=
        sameEffect_append_reader hIgnores hName hPipeline
          (String.join (readers.map (" | " ++ ·))) input
          toUser world
      have hJoined :
          " | " ++
              (name ++
                String.join (readers.map (" | " ++ ·))) =
            String.join
              ((name :: readers).map (" | " ++ ·)) := by
        rw [List.map_cons, String.join_cons,
          String.append_assoc]
      rw [hJoined] at hLonger
      rw [hLonger.outcome_eq, hLonger.world_eq]
      apply Run.andThen_readers
      intro output world
      have hClean := isCleanText_of_ofLine hName.alone
      have hRest :=
        ih hOthers (Plan.isPipeline_of_isCleanText hClean)
          output world
      have hAlone :=
        evaluateFor_of_handsOn hName output toUser world
      rw [List.foldl_cons, ← hAlone.1]
      exact ⟨hRest.1, hRest.2.trans hAlone.2⟩

/-
  Behind a pipeline of the standard commands, `cat` and
  `more` with nothing to read but their input change neither
  a text nor a failure, and never the files or directories.
  If the pipeline succeeds without a text, the first of them
  fails for want of one.
-/
theorem readers_hand_on
    (clock : Clock)
    (settings : Settings)
    (interactive : Bool)
    {line : String}
    (hPipeline : (Plan.ofLine line).IsPipeline)
    {readers : List String}
    (hReaders :
      ∀ name ∈ readers,
        (name = "cat" ∨ name = "more") ∧
          name ∉ settings.disabled)
    (input : Option String)
    (world : World) :
    let shell : Shell :=
      ⟨Registry.standard clock settings, interactive⟩
    let run := shell.evaluate line input world
    let longer :=
      shell.evaluate
        (line ++ String.join (readers.map (" | " ++ ·)))
        input world
    longer.world = run.world ∧
      (run.outcome ≠ .success none →
        longer.outcome = run.outcome) ∧
      ∀ name others,
        readers = name :: others →
          run.outcome = .success none →
            longer.outcome =
              .failure .genericError
                (name ++
                  ": expected a file or piped input") := by
  intro shell run longer
  have hHandOn :
      ∀ name ∈ readers, shell.registry.HandsOn name := by
    intro name hMem
    exact Registry.handsOn_standard clock
      (hReaders name hMem).1 (hReaders name hMem).2
  have hLonger :
      longer.outcome =
          readers.foldl Outcome.handedTo run.outcome ∧
        longer.world = run.world :=
    evaluateFor_append_readers
      (Registry.ignoresUser_standard clock settings) hHandOn
      hPipeline input interactive world
  refine ⟨hLonger.2, ?_, ?_⟩
  · intro hSome
    rw [hLonger.1]
    exact Outcome.foldl_handedTo hSome readers
  · intro name others hFirst hNothing
    rw [hLonger.1, hFirst, hNothing]
    exact Outcome.foldl_handedTo_cons name others

/- A blank stage has no text, whatever came before it. -/
theorem blank_stage_leaves_nothing :
    let shell : Shell :=
      ⟨Registry.standard Clock.unset Settings.standard, false⟩
    let world : World := ⟨FileSystem.empty, ⟨"/", "/"⟩⟩
    (Plan.ofLine "cat|").IsPipeline ∧
      (∀ name ∈ ["more", "cat"],
        (name = "cat" ∨ name = "more") ∧
          name ∉ Settings.standard.disabled) ∧
      (shell.evaluate "cat|" (some "x") world).outcome =
        .success none ∧
      (shell.evaluate
          ("cat|" ++
            String.join (["more", "cat"].map (" | " ++ ·)))
          (some "x") world).outcome =
        .failure .genericError
          ("more" ++ ": expected a file or piped input") := by
  intro shell world
  have hPlan :
      Plan.ofLine "cat|" =
        ⟨[⟨"cat", some ("cat|", .pipeline)⟩, ⟨"", none⟩],
          none⟩ := by
    decide +kernel
  have hReaders :
      ∀ name ∈ ["more", "cat"],
        (name = "cat" ∨ name = "more") ∧
          name ∉ Settings.standard.disabled := by
    decide
  have hPipeline : (Plan.ofLine "cat|").IsPipeline := by
    rw [hPlan]
    refine ⟨rfl, ?_⟩
    intro stage hMem
    simp only [List.mem_cons, List.not_mem_nil, or_false]
      at hMem
    rcases hMem with rfl | rfl
    · have hScan :=
        (Registry.handsOn_standard Clock.unset
          (Or.inl rfl) (hReaders "cat" (by simp)).2).alone
      exact isCleanText_of_ofLine hScan
    · exact ⟨[], .nil, rfl⟩
  have hNothing :
      (shell.evaluate "cat|" (some "x") world).outcome =
        .success none := by
    decide +kernel
  exact
    ⟨hPipeline, hReaders, hNothing,
      (readers_hand_on Clock.unset Settings.standard false
        hPipeline hReaders (some "x") world).2.2 "more"
        ["cat"] rfl hNothing⟩

end Shell

end LineShell

import LineShell.Proofs.Command.Standard
import LineShell.Proofs.Line.Quoting
import LineShell.Proofs.Line.Spacing
import LineShell.Proofs.Session.Status
import LineShell.Session.Terminal

/-
  Lines that end a session. They are the spellings of one
  word, bare or with some of it in quotes, and they are what
  a shell with the standard commands does not know as a
  command.

  Key definitions include:
    * `IsSpelling`
    * `IsExitWord`
    * `IsExitLine`

  Correctness is proven by:
    * `Scan.ofLine_eq_single_iff`
    * `Shell.outcome_eq_notFound_iff`
    * `exit_is_no_command`
-/

------------------------------------------------------------
-- Lines of one word
------------------------------------------------------------

namespace LineShell

/-
  A text without spaces at its ends that stands for one
  word: the word itself, or the beginning of it with what
  comes then in quotes.
-/
inductive IsSpelling
    (word : String) :
    List Char → Prop
  | bare
      (hSome : word ≠ "")
      (hPlain : ∀ c ∈ word.toList, IsPlain c) :
      IsSpelling word word.toList
  | quoted
      {run body : List Char}
      {quote : Char}
      (hWord : word.toList = run ++ body)
      (hRun : ∀ c ∈ run, IsPlain c)
      (hQuote : isQuote quote = true)
      (hBody : quote ∉ body) :
      IsSpelling word (run ++ quote :: (body ++ [quote]))

namespace Pieces

/- A clean row without words is a row of spaces. -/
theorem exists_text_of_yield_nil
    {pieces : Pieces}
    (hClean : pieces.IsClean)
    (hYield : pieces.yield = []) :
    ∃ count, pieces.text = List.replicate count ' ' := by
  induction hClean with
  | nil => exact ⟨0, rfl⟩
  | space hRest ih =>
      rcases ih hYield with ⟨count, hText⟩
      refine ⟨count + 1, ?_⟩
      rw [text_cons, hText]
      rfl
  | quoted hRun hQuote hBody hRest ih => cases hYield
  | lastBare hSome hRun => cases hYield
  | bare hSome hRun hRest ih => cases hYield

/- A clean row of one word spells it between spaces. -/
theorem exists_spelling_of_yield_single
    {pieces : Pieces}
    (hClean : pieces.IsClean)
    {word : String}
    (hYield : pieces.yield = [word]) :
    ∃ before after spelling,
      IsSpelling word spelling ∧
        pieces.text =
          List.replicate before ' ' ++ spelling ++
            List.replicate after ' ' := by
  induction hClean with
  | nil => cases hYield
  | space hRest ih =>
      rcases ih hYield with
        ⟨before, after, spelling, hSpelling, hText⟩
      refine
        ⟨before + 1, after, spelling, hSpelling, ?_⟩
      rw [text_cons, hText]
      rfl
  | @quoted run body quote rest hRun hQuote hBody hRest ih =>
      rcases List.cons.inj hYield with ⟨rfl, hNone⟩
      rcases exists_text_of_yield_nil hRest hNone with
        ⟨after, hText⟩
      refine
        ⟨0, after, _,
          .quoted String.toList_ofList hRun hQuote hBody, ?_⟩
      rw [text_cons, hText]
      rfl
  | @lastBare run hSome hRun =>
      rcases List.cons.inj hYield with ⟨rfl, _⟩
      refine ⟨0, 0, _, .bare ?_ ?_, ?_⟩
      · simpa using hSome
      · simpa using hRun
      · simp [text, Piece.text]
  | @bare run rest hSome hRun hRest ih =>
      rcases List.cons.inj hYield with ⟨rfl, hNone⟩
      rcases exists_text_of_yield_nil hRest hNone with
        ⟨after, hText⟩
      refine ⟨0, after, _, .bare ?_ ?_, ?_⟩
      · simpa using hSome
      · simpa using hRun
      · rw [text_cons, hText]
        simp [Piece.text]

end Pieces

namespace Scan

theorem ofLine_of_isSpelling
    {word spelling : String}
    (hSpelling : IsSpelling word spelling.toList) :
    ofLine spelling = .ok ⟨[word], none⟩ := by
  generalize hText : spelling.toList = text at hSpelling
  cases hSpelling with
  | bare hSome hPlain =>
      obtain rfl := String.toList_inj.1 hText
      exact ofLine_of_plain hSome hPlain
  | @quoted run body quote hWord hRun hQuote hBody =>
      have hClean :
          Pieces.IsClean [.quoted run quote body] :=
        .quoted hRun hQuote hBody .nil
      have hYield :
          Pieces.yield [.quoted run quote body] = [word] := by
        simp [Pieces.yield, Piece.words, ← hWord]
      rw [← hYield]
      refine (Reading.clean hClean ?_).ofLine_eq
      rw [hText]
      simp [Piece.text]

/-
  The lines that are scanned to one word are its spellings
  with any number of spaces at their ends.
-/
theorem ofLine_eq_single_iff
    {line word : String} :
    ofLine line = .ok ⟨[word], none⟩ ↔
      ∃ before after spelling,
        IsSpelling word spelling.toList ∧
          line =
            Text.spaces before ++ spelling ++
              Text.spaces after := by
  constructor
  · intro hScan
    have hReading := (ofLine_eq_iff line _).1 hScan
    generalize hResult :
        (.ok ⟨[word], none⟩ : Except UnclosedQuote Scan) =
          result
      at hReading
    cases hReading with
    | clean hClean hLine =>
        have hYield := (Except.ok.inj hResult).symm
        rw [Scan.mk.injEq] at hYield
        rcases Pieces.exists_spelling_of_yield_single hClean
            hYield.1 with
          ⟨before, after, spelling, hSpelling, hText⟩
        refine
          ⟨before, after, String.ofList spelling, ?_, ?_⟩
        · rw [String.toList_ofList]
          exact hSpelling
        · apply String.toList_inj.1
          rw [hLine, hText]
          simp [Text.toList_spaces]
    | divided hClean hSingle hLine => simp at hResult
    | unclosed hClean hQuote hOpen hLine => cases hResult
  · rintro ⟨before, after, spelling, hSpelling, rfl⟩
    rw [ofLine_append_end, ofLine_spaces_append,
      ofLine_of_isSpelling hSpelling]
    rfl

end Scan

end LineShell

------------------------------------------------------------
-- Lines that a shell does not know
------------------------------------------------------------

namespace LineShell

namespace Shell

variable
    {shell : Shell}
    {line name : String}
    {args : List String}

/- A command that is not registered is not found. -/
theorem outcome_of_unregistered
    (hScan :
      Scan.ofLine line = .ok ⟨name :: args, none⟩)
    (hFind : shell.registry.find? name = none)
    (input : Option String)
    (world : World) :
    (shell.evaluate line input world).outcome =
      .failure .commandNotFound
        (name ++ ": command not found") := by
  have hLine :
      Directive.ofLine shell.registry.contains line =
        .ok (.unregistered name args) := by
    rw [Directive.ofLine_of_words hScan]
    simp [Directive.ofWords, Registry.contains, hFind]
  unfold evaluate
  rw [evaluateFor_of_unregistered input _ world hLine]
  rfl

/- A command that is registered is found, however it ends. -/
theorem status_ne_of_registered
    {command : Command}
    (hScan :
      Scan.ofLine line = .ok ⟨name :: args, none⟩)
    (hFind : shell.registry.find? name = some command)
    (input : Option String)
    (world : World) :
    (shell.evaluate line input world).outcome.status ≠
      .commandNotFound := by
  have hLine :
      Directive.ofLine shell.registry.contains line =
        .ok (.simple name args) := by
    rw [Directive.ofLine_of_words hScan]
    simp [Directive.ofWords, Registry.contains, hFind]
  unfold evaluate
  rw [evaluateFor_of_simple input _ world hLine,
    Run.outcome_after]
  simp only [dispatch, hFind]
  split
  · rw [Run.outcome_after, outcome_enter]
    cases (shell.answer command args input
        shell.interactive world).result with
    | ok output => simp [Outcome.ofResult, Outcome.success]
    | error fault =>
        cases fault <;>
          simp [Outcome.ofResult, Outcome.failure,
            Fault.status]
  · simp [refuse, Outcome.failure]

/- What is not found tells which name it was. -/
theorem name_eq_of_failure_eq
    {first second : String}
    (hSame :
      Outcome.failure .commandNotFound
          (first ++ ": command not found") =
        .failure .commandNotFound
          (second ++ ": command not found")) :
    first = second := by
  have hLine :
      ∀ name : String,
        Outcome.asLine (name ++ ": command not found") =
          name ++ ": command not found" ++ "\n" := by
    intro name
    have hEnd :
        (name ++ ": command not found").toList.getLast? =
          some 'd' := by
      rw [String.toList_append, List.getLast?_append]
      rfl
    unfold Outcome.asLine
    rw [hEnd, if_neg (by decide)]
  simp only [Outcome.failure, Outcome.mk.injEq,
    Option.some.injEq, hLine, true_and] at hSame
  rw [String.append_left_inj, String.append_left_inj] at hSame
  exact hSame

/-
  A line of one word is answered with a name that is not
  found exactly if it is this name and not registered.
-/
theorem outcome_eq_notFound_iff
    {word : String}
    (hScan : Scan.ofLine line = .ok ⟨[word], none⟩)
    (input : Option String)
    (world : World) :
    (shell.evaluate line input world).outcome =
        .failure .commandNotFound
          (name ++ ": command not found") ↔
      word = name ∧ shell.registry.find? name = none := by
  cases hFind : shell.registry.find? word with
  | none =>
      rw [outcome_of_unregistered hScan hFind]
      constructor
      · intro hSame
        obtain rfl := name_eq_of_failure_eq hSame
        exact ⟨rfl, hFind⟩
      · rintro ⟨rfl, _⟩
        rfl
  | some command =>
      have hStatus :=
        status_ne_of_registered hScan hFind input world
      constructor
      · intro hOutcome
        rw [hOutcome] at hStatus
        exact absurd rfl hStatus
      · rintro ⟨rfl, hNone⟩
        rw [hFind] at hNone
        cases hNone

end Shell

/- No standard command has the name `exit`. -/
theorem Registry.find?_exit_standard
    (clock : Clock)
    (settings : Settings) :
    (standard clock settings).find? "exit" = none := by
  apply Option.eq_none_iff_forall_ne_some.2
  intro command hFind
  rcases (find?_standard_iff clock settings).1 hFind with
    ⟨hMem, hName, _⟩
  have hNames :
      "exit" ∈
        (standardCommands clock settings).map
          Command.name := by
    rw [← hName]
    exact List.mem_map_of_mem hMem
  revert hNames
  change
    "exit" ∈
      ["args", "cat", "cd", "clear", "cp", "date", "help",
        "ls", "mkdir", "more", "mv", "pwd", "rm",
        "rmdir"] → False
  decide

end LineShell

------------------------------------------------------------
-- The word that ends a session
------------------------------------------------------------

namespace LineShell

theorem isExit_iff_ofLine
    {line : String} :
    isExit line = true ↔
      Scan.ofLine line = .ok ⟨["exit"], none⟩ := by
  unfold isExit
  cases Scan.ofLine line with
  | error fault => simp
  | ok scan =>
      rcases scan with ⟨words, boundary⟩
      simp [and_comm]

/- `exit`, or a beginning of it with the rest in quotes. -/
def IsExitWord
    (spelling : String) : Prop :=
  spelling = "exit" ∨
    ∃ (front back : String) (quote : Char),
      isQuote quote = true ∧ front ++ back = "exit" ∧
        spelling =
          front ++ String.singleton quote ++ back ++
            String.singleton quote

/- Such a word with any number of spaces at its ends. -/
def IsExitLine
    (line : String) : Prop :=
  ∃ before after spelling,
    IsExitWord spelling ∧
      line =
        Text.spaces before ++ spelling ++
          Text.spaces after

/- These are all spellings of the word. -/
theorem isSpelling_exit_iff
    {spelling : String} :
    IsSpelling "exit" spelling.toList ↔
      IsExitWord spelling := by
  have hExit : ∀ c ∈ "exit".toList, IsPlain c := by
    simp [IsPlain, isQuote, singleQuote, doubleQuote]
  constructor
  · intro hSpelling
    generalize hText : spelling.toList = text at hSpelling
    cases hSpelling with
    | bare hSome hPlain =>
        exact Or.inl (String.toList_inj.1 hText)
    | @quoted run body quote hWord hRun hQuote hBody =>
        refine
          Or.inr
            ⟨String.ofList run, String.ofList body, quote,
              hQuote, ?_, ?_⟩
        · apply String.toList_inj.1
          simpa using hWord.symm
        · apply String.toList_inj.1
          simpa using hText
  · rintro (rfl | ⟨front, back, quote, hQuote, hWord, rfl⟩)
    · exact .bare (by decide) hExit
    · have hChars :
          "exit".toList = front.toList ++ back.toList := by
        rw [← hWord, String.toList_append]
      -- No letter of the word is a quote or an operator.
      have hRun : ∀ c ∈ front.toList, IsPlain c := by
        intro c hMem
        apply hExit
        rw [hChars]
        exact List.mem_append_left _ hMem
      have hBody : quote ∉ back.toList := by
        intro hMem
        have hPlain : IsPlain quote := by
          apply hExit
          rw [hChars]
          exact List.mem_append_right _ hMem
        rw [hPlain.2.1] at hQuote
        cases hQuote
      have hSpelling :=
        IsSpelling.quoted hChars hRun hQuote hBody
      simpa using hSpelling

theorem isExit_iff_isExitLine
    {line : String} :
    isExit line = true ↔ IsExitLine line := by
  rw [isExit_iff_ofLine, Scan.ofLine_eq_single_iff]
  simp only [isSpelling_exit_iff]
  rfl

/-
  A line of which the directive is a command is scanned to
  the words of that command.
-/
theorem Scan.ofLine_of_directive
    {registered : String → Bool}
    {line name : String}
    {args : List String}
    (hDirective :
      Directive.ofLine registered line =
          .ok (.simple name args) ∨
        Directive.ofLine registered line =
          .ok (.unregistered name args)) :
    ofLine line = .ok ⟨name :: args, none⟩ := by
  have hWords :
      ∀ directive,
        Directive.ofLine registered line = .ok directive →
          (directive = .simple name args ∨
            directive = .unregistered name args) →
            ofLine line = .ok ⟨name :: args, none⟩ := by
    intro directive hLine hCommand
    rcases Directive.eq_of_ofLine hLine with
      ⟨⟨words, _⟩, hScan, ⟨rfl, hEq⟩ |
        ⟨boundary, rfl, hEq⟩⟩
    · rcases Directive.ofWords_cases registered words with
        ⟨_, hNone⟩ | ⟨first, rest, rfl, hSome | hSome⟩
      · simp [hEq, hNone] at hCommand
      · simp only [hEq, hSome, Directive.simple.injEq,
          reduceCtorEq, or_false] at hCommand
        rw [hScan, hCommand.1, hCommand.2]
      · simp only [hEq, hSome, Directive.unregistered.injEq,
          reduceCtorEq, false_or] at hCommand
        rw [hScan, hCommand.1, hCommand.2]
    · unfold Directive.atBoundary at hEq
      cases hOperator : boundary.operator <;>
        simp [hEq, hOperator] at hCommand
  rcases hDirective with hLine | hLine
  · exact hWords _ hLine (Or.inl rfl)
  · exact hWords _ hLine (Or.inr rfl)

/- Whatever is registered, the directive tells such lines. -/
theorem isExit_iff_directive
    {line : String}
    (registered : String → Bool) :
    isExit line = true ↔
      Directive.ofLine registered line =
          .ok (.simple "exit" []) ∨
        Directive.ofLine registered line =
          .ok (.unregistered "exit" []) := by
  rw [isExit_iff_ofLine]
  constructor
  · intro hScan
    rw [Directive.ofLine_of_words hScan, Directive.ofWords]
    split
    · exact Or.inl rfl
    · exact Or.inr rfl
  · exact Scan.ofLine_of_directive

/-
  A line ends a session if it spells `exit` between spaces,
  and no other line does. Evaluation agrees with this: for
  any registry it is a line of which the directive is a
  command of that name without arguments, and with the
  standard commands, whatever the settings, it is a line of
  one word that is answered with `exit` not being found.
-/
theorem exit_is_no_command
    (line : String) :
    (isExit line = true ↔ IsExitLine line) ∧
      (∀ registry : Registry,
        isExit line = true ↔
          Directive.ofLine registry.contains line =
              .ok (.simple "exit" []) ∨
            Directive.ofLine registry.contains line =
              .ok (.unregistered "exit" [])) ∧
      ∀ (clock : Clock) (settings : Settings)
          (interactive : Bool) (input : Option String)
          (world : World),
        isExit line = true ↔
          (∃ word, Scan.ofLine line = .ok ⟨[word], none⟩) ∧
            (Shell.evaluate
                ⟨Registry.standard clock settings,
                  interactive⟩
                line input world).outcome =
              .failure .commandNotFound
                "exit: command not found" := by
  refine
    ⟨isExit_iff_isExitLine,
      fun registry => isExit_iff_directive registry.contains,
      ?_⟩
  intro clock settings interactive input world
  have hNone := Registry.find?_exit_standard clock settings
  rw [isExit_iff_ofLine]
  constructor
  · intro hScan
    refine ⟨⟨"exit", hScan⟩, ?_⟩
    exact
      (Shell.outcome_eq_notFound_iff hScan input world).2
        ⟨rfl, hNone⟩
  · rintro ⟨⟨word, hScan⟩, hOutcome⟩
    have hMessage :
        "exit: command not found" =
          "exit" ++ ": command not found" :=
      rfl
    rw [hMessage, Shell.outcome_eq_notFound_iff hScan]
      at hOutcome
    rw [hScan, hOutcome.1]

/- A quoted beginning makes another word. -/
example : isExit " ex\"it\" " = true ∧
    isExit "''exit" = false := by
  decide +kernel

end LineShell

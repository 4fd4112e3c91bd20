import LineShell.Proofs.Command.Standard
import LineShell.Proofs.Session.Pipeline
import LineShell.Proofs.Session.Redirect
import LineShell.Proofs.Text.Trimmed

/-
  What a redirect wrote is read back under the same name.
  The target of a redirect is the rest of its line, and the
  argument of a command is a word between quotes; both name
  the same path where the first line has left the session.

  Key definitions include:
    * `Target.tail`
    * `Reading.catLine`

  Correctness is proven by:
    * `Shell.sameEffect_append_redirect`
    * `Run.IsRedirected.exists_spot`
    * `Shell.outcome_catLine`
    * `Shell.cat_reads_redirected`
-/

------------------------------------------------------------
-- Spaces behind a text
------------------------------------------------------------

namespace LineShell

/- A space behind a clean text completes it. -/
theorem exists_words_append_space
    {text : String}
    (hText : IsCleanText text.toList) :
    IsCleanText (text ++ " ").toList ∧
      ∃ words,
        Scan.ofLine text = .ok ⟨words, none⟩ ∧
          Scan.ofLine (text ++ " ") =
            .ok ⟨words, none⟩ := by
  rcases hText with ⟨pieces, hClean, hLine⟩
  have hSpaced : Pieces.IsClean (pieces ++ [.space]) :=
    hClean.append_space .nil
  have hSpacedLine :
      (text ++ " ").toList =
        Pieces.text (pieces ++ [.space]) := by
    rw [String.toList_append, hLine, Pieces.text_append]
    rfl
  have hYield :
      Pieces.yield (pieces ++ [.space]) = pieces.yield := by
    rw [Pieces.yield_append]
    exact List.append_nil pieces.yield
  refine ⟨⟨_, hSpaced, hSpacedLine⟩, pieces.yield, ?_, ?_⟩
  · exact (Reading.clean hClean hLine).ofLine_eq
  · rw [← hYield]
    exact (Reading.clean hSpaced hSpacedLine).ofLine_eq

/- No operator divides a clean text. -/
theorem not_isDividedText_of_isCleanText
    {text : String}
    (hText : IsCleanText text.toList) :
    ¬ IsDividedText text.toList := by
  intro hDivided
  rcases Scan.ofLine_of_isCleanText hText with
    ⟨words, hScan⟩
  rcases Scan.ofLine_of_isDividedText hDivided with
    ⟨others, boundary, hOther⟩
  rw [hScan] at hOther
  cases hOther

namespace Shell

variable
    {shell : Shell}

/- Texts that ask for the same have the same effect. -/
theorem sameEffect_of_demand
    {first second : String}
    (hDemand : shell.demand first = shell.demand second)
    (input : Option String)
    (toUser : Bool)
    (world : World) :
    (shell.runText first input toUser world).SameEffect
      (shell.runText second input toUser world) := by
  unfold runText
  rw [hDemand]
  cases shell.demand second with
  | unclosed fault => exact ⟨rfl, rfl, rfl⟩
  | nothing => exact ⟨rfl, rfl, rfl⟩
  | unknown name => exact ⟨rfl, rfl, rfl⟩
  | miscounted command name args => exact ⟨rfl, rfl, rfl⟩
  | call command name args => exact ⟨rfl, rfl, rfl⟩

/- A space behind a clean text makes no difference. -/
theorem sameEffect_append_space
    {text : String}
    (hText : IsCleanText text.toList)
    (input : Option String)
    (toUser : Bool)
    (world : World) :
    (shell.evaluateFor (text ++ " ") input toUser
        world).SameEffect
      (shell.evaluateFor text input toUser world) := by
  rcases exists_words_append_space hText with
    ⟨hSpaced, words, hScan, hSpacedScan⟩
  rw [evaluateFor_of_undivided input toUser world
      (not_isDividedText_of_isCleanText hText),
    evaluateFor_of_undivided input toUser world
      (not_isDividedText_of_isCleanText hSpaced)]
  apply sameEffect_of_demand
  unfold demand
  rw [hScan, hSpacedScan]

/-
  If each clean text with a tail behind it is evaluated as
  the text and then goes on, so is each pipeline with a space
  and the tail behind it.
-/
theorem sameEffect_append_spaced
    {tail : String}
    {c : Char}
    (hHead : tail.toList.head? = some c)
    (hBlank : Text.isBlank c = false)
    {toUser : Bool}
    {next : Option String → World → Run}
    (hFront :
      ∀ front input world,
        IsCleanText front.toList →
          (shell.evaluateFor (front ++ tail) input toUser
              world).SameEffect
            ((shell.evaluateFor front input false
              world).andThen next))
    {line : String}
    (hPipeline : (Plan.ofLine line).IsPipeline)
    (input : Option String)
    (world : World) :
    (shell.evaluateFor (line ++ (" " ++ tail)) input toUser
        world).SameEffect
      ((shell.evaluateFor line input false world).andThen
        next) := by
  refine sameEffect_append_tail ?_ ?_
    (Plan.cuts_ofLine line) hPipeline input world
  · intro text input world hText
    have hSpaced := (exists_words_append_space hText).1
    rw [← String.append_assoc]
    apply (hFront (text ++ " ") input world hSpaced).trans
    apply Run.SameEffect.andThen
    · exact sameEffect_append_space hText input false world
    · intro output next
      exact .refl _
  · intro input world
    have hTrim :
        Text.trimStart (" " ++ tail) = "" ++ tail := by
      rw [Text.trimStart_space_append,
        Text.trimStart_of_head hHead hBlank,
        String.empty_append]
    rw [hTrim]
    exact hFront "" input world ⟨[], .nil, rfl⟩

end Shell

end LineShell

------------------------------------------------------------
-- Redirects behind a pipeline
------------------------------------------------------------

namespace LineShell

/- A target as it is written behind a pipeline. -/
def Target.tail
    (target : Target) : String :=
  " " ++
    ((Plan.redirection target.mode).text ++
      (" " ++ target.path))

/- A target has no blanks at its ends. -/
theorem Target.trim_path
    {target : Target}
    (hPath : Text.IsTrimmed target.path target.path) :
    Text.trim (" " ++ target.path) = target.path := by
  symm
  rw [← Text.isTrimmed_iff]
  refine ⟨hPath.no_blank_first, hPath.no_blank_last, ?_⟩
  refine ⟨" ", "", ?_, ?_, ?_⟩
  · intro c hMem
    have hSpace : c = ' ' := by simpa using hMem
    rw [hSpace]
    decide
  · intro c hMem
    cases hMem
  · rw [String.append_empty]

namespace Shell

variable
    {shell : Shell}
    {target : Target}

/- What stands before a redirect runs, and then it writes. -/
theorem evaluateFor_of_target
    (hPath : Text.IsTrimmed target.path target.path)
    {front : String}
    (hFront : IsCleanText front.toList)
    (input : Option String)
    (toUser : Bool)
    (world : World) :
    (shell.evaluateFor
        (front ++
          ((Plan.redirection target.mode).text ++
            (" " ++ target.path)))
        input toUser world).SameEffect
      ((shell.evaluateFor front input false world).andThen
        (write target.mode target.path)) := by
  have hDivided :
      DividedAt
        (front ++
          ((Plan.redirection target.mode).text ++
            (" " ++ target.path)))
        front (" " ++ target.path)
        (Plan.redirection target.mode) := by
    refine ⟨hFront, ?_, rfl⟩
    intro hSingle
    simp
  have hLine :
      Directive.ofLine shell.registry.contains
          (front ++
            ((Plan.redirection target.mode).text ++
              (" " ++ target.path))) =
        .ok (.redirect target.mode front target.path) := by
    rw [Directive.ofLine_of_redirection hDivided,
      Target.trim_path hPath]
  rw [evaluateFor_of_redirect input toUser world hLine]
  exact Run.SameEffect.after_recognized _ _ _

/- A pipeline with a target behind it runs and then writes. -/
theorem sameEffect_append_redirect
    (hPath : Text.IsTrimmed target.path target.path)
    {line : String}
    (hPipeline : (Plan.ofLine line).IsPipeline)
    (input : Option String)
    (world : World) :
    (shell.evaluate (line ++ target.tail) input
        world).SameEffect
      ((shell.quiet.evaluate line input world).andThen
        (write target.mode target.path)) := by
  rw [evaluate_quiet]
  have hHead :
      ((Plan.redirection target.mode).text ++
          (" " ++ target.path)).toList.head? =
        some '>' := by
    rw [String.toList_append]
    cases target.mode <;> rfl
  apply sameEffect_append_spaced hHead (by decide) ?_
    hPipeline
  intro front input world hFront
  exact evaluateFor_of_target hPath hFront input
    shell.interactive world

end Shell

end LineShell

------------------------------------------------------------
-- Redirects that succeed
------------------------------------------------------------

namespace LineShell

namespace Run

variable
    {inner run : Run}
    {target : Target}

/- A redirect that succeeds has a spot to write to. -/
theorem IsRedirected.exists_spot
    (hRun : inner.IsRedirected target run)
    (hSuccess : run.outcome.isSuccess = true) :
    ∃ spot,
      inner.world.files.locate .follow
          (inner.pathOf target) =
        .ok spot := by
  rcases FileSystem.locate_follow_cases inner.world.files
      (inner.pathOf target) with
    ⟨spot, hLocate, hWritable⟩ | hOpen
  · exact ⟨spot, hLocate⟩
  · have hStatus := (hRun.refused hOpen).1
    simp [Outcome.isSuccess, hStatus] at hSuccess

end Run

end LineShell

------------------------------------------------------------
-- Reading a file by its name in quotes
------------------------------------------------------------

namespace LineShell

/- The line that shows the file with a name in quotes. -/
def Reading.catLine
    (quote : Char)
    (path : String) : String :=
  "cat " ++ String.singleton quote ++ path ++
    String.singleton quote

/- The name in quotes is the only argument. -/
theorem Reading.exists_pieces_catLine
    {quote : Char}
    {path : String}
    (hQuote : isQuote quote = true)
    (hFree : quote ∉ path.toList) :
    ∃ pieces : Pieces,
      pieces.IsClean ∧
        (catLine quote path).toList = pieces.text ∧
        pieces.yield = ["cat", path] := by
  refine
    ⟨[.bare ['c', 'a', 't'], .space,
      .quoted [] quote path.toList], ?_, ?_, ?_⟩
  · refine .bare (by simp) ?_ (.space ?_)
    · simp [IsPlain, isQuote, singleQuote, doubleQuote]
    · exact .quoted (by simp) hQuote hFree .nil
  · simp [catLine, Piece.text]
  · simp [Pieces.yield, Piece.words]

namespace Shell

variable
    {shell : Shell}

/- The line shows the text of the file, whatever is piped. -/
theorem outcome_catLine
    (hCat :
      shell.registry.find? "cat" = some Reading.cat)
    {quote : Char}
    {path : String}
    (hQuote : isQuote quote = true)
    (hFree : quote ∉ path.toList)
    {world : World}
    {bytes : ByteArray}
    (hRead :
      world.files.readFile
          (world.directories.resolve path) =
        .ok bytes)
    (input : Option String) :
    (shell.evaluate (Reading.catLine quote path) input
        world).outcome =
      .success (some (Utf8.decodeLossy bytes)) := by
  rcases Reading.exists_pieces_catLine hQuote hFree with
    ⟨pieces, hClean, hLine, hYield⟩
  have hWhole :
      ¬ IsDividedText (Reading.catLine quote path).toList :=
    not_isDividedText_of_isCleanText ⟨pieces, hClean, hLine⟩
  have hScan :
      Scan.ofLine (Reading.catLine quote path) =
        .ok ⟨["cat", path], none⟩ := by
    rw [← hYield]
    exact (Reading.clean hClean hLine).ofLine_eq
  have hDemand :
      shell.demand (Reading.catLine quote path) =
        .call Reading.cat "cat" [path] := by
    simp [demand, demandOfWords, hScan, hCat, Reading.cat,
      Signature.accepts]
  have hShown :
      ∀ call : Call,
        call.args = [path] →
          call.directories = world.directories →
            Reading.cat.run call world.files =
              .plain world.files
                (some (Utf8.decodeLossy bytes)) := by
    intro call hArgs hDirectories
    have hResolve :
        call.resolve path = world.directories.resolve path := by
      rw [Call.resolve, hDirectories]
    simp [Reading.cat, Reading.showSource,
      Reading.sourceText, hArgs, Reading.readEach,
      Reading.readText, hResolve, hRead, bind, Except.bind,
      Except.map, Answer.plain]
  unfold evaluate
  rw [evaluateFor_of_undivided input shell.interactive world
    hWhole, runText, hDemand]
  simp only [Run.outcome_after, enter]
  rw [hShown _ rfl rfl]
  rfl

end Shell

end LineShell

------------------------------------------------------------
-- Reading what was written
------------------------------------------------------------

namespace LineShell

namespace Shell

variable
    {shell : Shell}

/-
  Behind a redirect that succeeds, the file of its target is
  shown as it was written.
-/
theorem outcome_catLine_of_redirect
    (hCat :
      shell.registry.find? "cat" = some Reading.cat)
    {quote : Char}
    {line : String}
    (target : Target)
    (hQuote : isQuote quote = true)
    (hFree : quote ∉ target.path.toList)
    (hPath : Text.IsTrimmed target.path target.path)
    (hPipeline : (Plan.ofLine line).IsPipeline)
    {input : Option String}
    {world : World}
    {inner first : Run}
    (hInner : shell.quiet.evaluate line input world = inner)
    (hFirst :
      shell.evaluate (line ++ target.tail) input world =
        first)
    (hSuccess : first.outcome.isSuccess = true)
    (hRegular :
      ∀ spot,
        inner.world.files.locate .follow
              (inner.pathOf target) =
            .ok spot →
          spot.content?.isSome = true) :
    ∃ old,
      inner.world.files.contentAt? (inner.pathOf target) =
          some old ∧
        ∀ next,
          (shell.evaluate
              (Reading.catLine quote target.path) next
              first.world).outcome =
            .success
              (some
                (Utf8.decodeLossy
                  (FileSystem.writtenContent target.mode old
                    inner.bytes))) := by
  have hSame :
      (shell.evaluate (line ++ target.tail) input
          world).SameEffect
        ((shell.quiet.evaluate line input world).andThen
          (write target.mode target.path)) :=
    sameEffect_append_redirect hPath hPipeline input world
  rw [hInner, hFirst] at hSame
  have hInnerSuccess : inner.outcome.isSuccess = true := by
    cases hFailed : inner.outcome.isSuccess with
    | true => rfl
    | false =>
        rw [Run.andThen_of_not_isSuccess hFailed] at hSame
        rw [hSame.outcome_eq, hFailed] at hSuccess
        cases hSuccess
  rw [Run.andThen_of_isSuccess hInnerSuccess] at hSame
  have hWrite := isRedirected_write inner target
  have hOutcome := hSame.outcome_eq
  have hWorld := hSame.world_eq
  rw [Run.outcome_after] at hOutcome
  rw [Run.world_after] at hWorld
  rw [hOutcome] at hSuccess
  rcases hWrite.exists_spot hSuccess with ⟨spot, hLocate⟩
  rcases Option.isSome_iff_exists.1
      (hRegular spot hLocate) with
    ⟨old, hContent⟩
  refine ⟨old, ?_, ?_⟩
  · simp only [FileSystem.contentAt?, hLocate, hContent]
  · intro next
    apply outcome_catLine hCat hQuote hFree
    have hResolve :
        first.world.directories.resolve target.path =
          inner.pathOf target := by
      rw [hWorld, Directories.resolve,
        hWrite.directories_eq]
      rfl
    rcases FileSystem.writeFile_of_content target.mode
        inner.bytes hLocate hContent with
      ⟨changed, hFile, hWith⟩
    rw [hResolve, hWorld, (write_of_changed hFile).2]
    exact FileSystem.readFile_of_isWith hLocate hContent
      hWith

/-
  What a pipeline leaves is written to a target and is read
  back under the same name between quotes: with the target
  emptied it is all that is shown, and else it is shown
  behind the text that the target had before. The target is
  any text without blanks at its ends that lacks one of the
  quotes, its path leads to a file or to nothing, and it is
  read where the pipeline has left the session.
-/
theorem cat_reads_redirected
    (hCat :
      shell.registry.find? "cat" = some Reading.cat)
    {quote : Char}
    {line path : String}
    (hQuote : isQuote quote = true)
    (hFree : quote ∉ path.toList)
    (hPath : Text.trim path = path)
    (hPipeline : (Plan.ofLine line).IsPipeline)
    {input : Option String}
    {world : World}
    {inner : Run}
    (hInner : shell.quiet.evaluate line input world = inner)
    (hRegular :
      ∀ spot,
        inner.world.files.locate .follow
              (inner.world.directories.resolve path) =
            .ok spot →
          spot.content?.isSome = true) :
    (∀ first,
      shell.evaluate (line ++ " > " ++ path) input world =
          first →
        first.outcome.isSuccess = true →
          ∀ next,
            (shell.evaluate (Reading.catLine quote path)
                next first.world).outcome =
              .success
                (some (inner.outcome.output.getD ""))) ∧
      ∀ first,
        shell.evaluate (line ++ " >> " ++ path) input
            world =
            first →
          first.outcome.isSuccess = true →
            ∃ old,
              inner.world.files.contentAt?
                  (inner.world.directories.resolve path) =
                some old ∧
              ∀ text,
                Utf8.decode? old = some text →
                  ∀ next,
                    (shell.evaluate
                        (Reading.catLine quote path) next
                        first.world).outcome =
                      .success
                        (some
                          (text ++
                            inner.outcome.output.getD
                              "")) := by
  have hTrimmed : Text.IsTrimmed path path :=
    Text.isTrimmed_iff.2 hPath.symm
  have hBytes := inner.toByteArray_getD_output
  constructor
  · intro first hFirst hSuccess next
    have hTail :
        line ++ " > " ++ path =
          line ++ Target.tail ⟨.truncate, path⟩ :=
      String.append_assoc
    rw [hTail] at hFirst
    rcases outcome_catLine_of_redirect hCat
        ⟨.truncate, path⟩ hQuote hFree hTrimmed hPipeline
        hInner hFirst hSuccess hRegular with
      ⟨old, hOld, hShown⟩
    rw [hShown next, FileSystem.writtenContent, ← hBytes,
      Utf8.decodeLossy_toByteArray]
  · intro first hFirst hSuccess
    have hTail :
        line ++ " >> " ++ path =
          line ++ Target.tail ⟨.append, path⟩ :=
      String.append_assoc
    rw [hTail] at hFirst
    rcases outcome_catLine_of_redirect hCat
        ⟨.append, path⟩ hQuote hFree hTrimmed hPipeline
        hInner hFirst hSuccess hRegular with
      ⟨old, hOld, hShown⟩
    refine ⟨old, hOld, ?_⟩
    intro text hText next
    have hWritten :
        old ++ inner.bytes =
          (text ++
            inner.outcome.output.getD "").toByteArray := by
      rw [Utf8.eq_toByteArray_of_decode? hText,
        String.toByteArray_append, hBytes]
    rw [hShown next, FileSystem.writtenContent, hWritten,
      Utf8.decodeLossy_toByteArray]

/- A name with a quote and operators in it is read back. -/
theorem written_twice_read_back :
    let shell : Shell :=
      ⟨Registry.standard Clock.unset Settings.standard, true⟩
    let world :=
      (shell.evaluate "pwd > a' |>b" none
        ⟨FileSystem.empty, ⟨"/", "/"⟩⟩).world
    (∀ next,
      (shell.evaluate
          (Reading.catLine doubleQuote "..//a' |>b") next
          (shell.evaluate
            ("mkdir d|cd d|pwd " ++ " > " ++ "..//a' |>b")
            none world).world).outcome =
        .success (some "/d\n")) ∧
      ∀ next,
        (shell.evaluate
            (Reading.catLine doubleQuote "..//a' |>b")
            next
            (shell.evaluate
              ("mkdir d|cd d|pwd " ++ " >> " ++
                "..//a' |>b")
              none world).world).outcome =
          .success (some "/\n/d\n") := by
  intro shell world
  have hPlan :
      Plan.ofLine "mkdir d|cd d|pwd " =
        ⟨[⟨"mkdir d",
            some ("mkdir d|cd d|pwd ", .pipeline)⟩,
          ⟨"cd d", some ("cd d|pwd ", .pipeline)⟩,
          ⟨"pwd ", none⟩], none⟩ := by
    decide +kernel
  have hPlain :
      ∀ {run : List Char},
        run.all (fun c => decide (IsPlain c)) = true →
          ∀ c ∈ run, IsPlain c := by
    intro run hRun
    simpa using hRun
  have hPipeline :
      (Plan.ofLine "mkdir d|cd d|pwd ").IsPipeline := by
    rw [hPlan]
    refine ⟨rfl, ?_⟩
    intro stage hMem
    simp only [List.mem_cons, List.not_mem_nil, or_false]
      at hMem
    rcases hMem with rfl | rfl | rfl
    · exact
        ⟨[.bare ['m', 'k', 'd', 'i', 'r'], .space,
            .bare ['d']],
          .bare (by simp) (hPlain rfl)
            (.space (.lastBare (by simp) (hPlain rfl))),
          rfl⟩
    · exact
        ⟨[.bare ['c', 'd'], .space, .bare ['d']],
          .bare (by simp) (hPlain rfl)
            (.space (.lastBare (by simp) (hPlain rfl))),
          rfl⟩
    · exact
        ⟨[.bare ['p', 'w', 'd'], .space],
          .bare (by simp) (hPlain rfl) (.space .nil), rfl⟩
  have hRegular :
      ((shell.quiet.evaluate "mkdir d|cd d|pwd " none
          world).world.files.locate .follow
        ((shell.quiet.evaluate "mkdir d|cd d|pwd " none
          world).world.directories.resolve
            "..//a' |>b")).toOption.all
        (·.content?.isSome) = true := by
    decide +kernel
  have hOutput :
      (shell.quiet.evaluate "mkdir d|cd d|pwd " none
        world).outcome.output = some "/d\n" := by
    decide +kernel
  have hContent :
      ((shell.quiet.evaluate "mkdir d|cd d|pwd " none
          world).world.files.contentAt?
        ((shell.quiet.evaluate "mkdir d|cd d|pwd " none
          world).world.directories.resolve
            "..//a' |>b")).bind Utf8.decode? =
        some "/\n" := by
    decide +kernel
  have hShown :=
    @cat_reads_redirected shell
      (Registry.find?_cat_standard Clock.unset
        Settings.standard (by decide))
      doubleQuote "mkdir d|cd d|pwd " "..//a' |>b"
      (by decide) (by decide) (by decide +kernel) hPipeline
      none world
      (shell.quiet.evaluate "mkdir d|cd d|pwd " none world)
      rfl
      (by
        intro spot hLocate
        rw [hLocate] at hRegular
        exact hRegular)
  rw [hOutput] at hShown
  constructor
  · intro next
    exact hShown.1 _ rfl (by decide +kernel) next
  · intro next
    rcases hShown.2 _ rfl (by decide +kernel) with
      ⟨old, hOld, hNext⟩
    rw [hOld] at hContent
    exact hNext _ hContent next

end Shell

end LineShell

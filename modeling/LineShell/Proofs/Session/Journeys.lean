import LineShell.Proofs.Path.Joined
import LineShell.Proofs.Session.CurrentDirectory

/-
  Journeys of a session. To go to a directory and from there
  to another one is to go to the joined path at once: the
  last step of the long way and the short way end alike, and
  if they succeed they lead to the same place.

  Key definitions include:
    * `IsLineOf`
    * `Shell.ComposesPaths`

  Correctness is proven by:
    * `Shell.evaluate_of_isLineOf`
    * `Shell.outcome_enter_cd`
    * `Shell.world_enter_cd`
    * `Shell.cd_joined`
    * `Shell.steps_compose`
-/

------------------------------------------------------------
-- Lines without operators
------------------------------------------------------------

namespace LineShell

/-
  A line that has these words and no operator, however it is
  quoted and spaced.
-/
def IsLineOf
    (words : List String)
    (line : String) : Prop :=
  Scan.ofLine line = .ok ⟨words, none⟩

namespace Shell

variable
    {shell : Shell}
    {line : String}

/- A line without operators is evaluated at once. -/
theorem evaluate_of_isLineOf
    {words : List String}
    (hLine : IsLineOf words line)
    (input : Option String)
    (world : World) :
    shell.evaluate line input world =
      shell.runText line input shell.interactive world := by
  unfold IsLineOf at hLine
  have hDirective :
      Directive.ofLine shell.registry.contains line =
        .ok (Directive.ofWords shell.registry.contains
          words) := by
    simp [Directive.ofLine, hLine, Except.map]
  have hDemand :
      shell.demand line = shell.demandOfWords words := by
    rw [demand, hLine]
  exact evaluateFor_of_words input shell.interactive world
    hDirective hDemand

/- A line of `cd` with a path enters it. -/
theorem evaluate_cd
    (hCd :
      shell.registry.find? "cd" = some Navigation.cd)
    {raw : String}
    (hLine : IsLineOf ["cd", raw] line)
    (input : Option String)
    (world : World) :
    shell.evaluate line input world =
      (shell.enter Navigation.cd [raw] input
        shell.interactive world).after
        [.recognized line .simple, .entered "cd" [raw]] := by
  have hDemand :
      shell.demand line =
        .call Navigation.cd "cd" [raw] := by
    unfold IsLineOf at hLine
    simp [demand, hLine, demandOfWords, hCd, Navigation.cd,
      Signature.accepts]
  rw [evaluate_of_isLineOf hLine, runText, hDemand]

end Shell

end LineShell

------------------------------------------------------------
-- One step
------------------------------------------------------------

namespace LineShell

/-
  Of a call `cd` looks at nothing but the path to which it
  leads.
-/
theorem Navigation.run_cd_of_resolve_eq
    {call other : Call}
    (hPath :
      call.resolve (call.args.headD call.directories.home) =
        other.resolve
          (other.args.headD other.directories.home))
    (files : FileSystem) :
    cd.run call files = cd.run other files := by
  unfold cd
  dsimp only
  rw [hPath]

namespace Shell

variable
    {shell : Shell}
    {input : Option String}
    {toUser : Bool}
    {world : World}

/- How `cd` ends is a matter of the files and the path. -/
theorem outcome_enter_cd
    {raw otherRaw : String}
    {other : World}
    (hFiles : world.files = other.files)
    (hPath :
      world.directories.resolve raw =
        other.directories.resolve otherRaw) :
    (shell.enter Navigation.cd [raw] input toUser
        world).outcome =
      (shell.enter Navigation.cd [otherRaw] input toUser
        other).outcome := by
  have hAnswer :
      shell.answer Navigation.cd [raw] input toUser world =
        shell.answer Navigation.cd [otherRaw] input toUser
          other := by
    unfold answer
    rw [hFiles]
    apply Navigation.run_cd_of_resolve_eq
    exact hPath
  rw [outcome_enter, outcome_enter, hAnswer]

/- Where `cd` succeeds, it has gone to its path. -/
theorem world_enter_cd
    {raw : String}
    (hSuccess :
      (shell.enter Navigation.cd [raw] input toUser
        world).outcome.isSuccess = true) :
    (shell.enter Navigation.cd [raw] input toUser
        world).world =
      { world with
        directories :=
          { world.directories with
            current := world.directories.resolve raw } } := by
  have hPath :
      world.directories.resolve
          ([raw].headD world.directories.home) =
        world.directories.resolve raw :=
    rfl
  rcases enter_cd hPath with
    ⟨hThere, hEnter⟩ | ⟨hNone, fault, hEnter⟩
  · rw [hEnter]
  · rw [hEnter] at hSuccess
    cases fault <;> cases hSuccess

end Shell

end LineShell

------------------------------------------------------------
-- Two steps
------------------------------------------------------------

namespace LineShell

namespace Shell

/- The world after a step that succeeds. -/
theorem world_evaluate_cd
    {shell : Shell}
    (hCd :
      shell.registry.find? "cd" = some Navigation.cd)
    {raw line : String}
    (hLine : IsLineOf ["cd", raw] line)
    {input : Option String}
    {world : World}
    (hSuccess :
      (shell.evaluate line input
        world).outcome.isSuccess = true) :
    (shell.evaluate line input world).world =
      { world with
        directories :=
          { world.directories with
            current := world.directories.resolve raw } } := by
  rw [evaluate_cd hCd hLine, Run.outcome_after] at hSuccess
  rw [evaluate_cd hCd hLine, Run.world_after]
  exact world_enter_cd hSuccess

/-
  After a step to a first path, a step to a second one ends
  as a step to the joined path would have ended at the
  start. If they succeed, they leave the same world.
-/
theorem cd_joined
    {shell : Shell}
    (hCd :
      shell.registry.find? "cd" = some Navigation.cd)
    {first second line next whole : String}
    (hFirst : first ≠ "")
    (hSecond : Path.isAbsolute second = false)
    (hLine : IsLineOf ["cd", first] line)
    (hNext : IsLineOf ["cd", second] next)
    (hWhole : IsLineOf ["cd", first ++ "/" ++ second] whole)
    {input : Option String}
    {world there : World}
    (hDirectory :
      Path.isAbsolute world.directories.current = true)
    (hSuccess :
      (shell.evaluate line input
        world).outcome.isSuccess = true)
    (hThere :
      (shell.evaluate line input world).world = there) :
    (shell.evaluate next input there).outcome =
        (shell.evaluate whole input world).outcome ∧
      ((shell.evaluate whole input
          world).outcome.isSuccess = true →
        (shell.evaluate next input there).world =
          (shell.evaluate whole input world).world) := by
  rw [world_evaluate_cd hCd hLine hSuccess] at hThere
  subst hThere
  have hPath :
      Directories.resolve
          { world.directories with
            current := world.directories.resolve first }
          second =
        world.directories.resolve
          (first ++ "/" ++ second) := by
    unfold Directories.resolve
    rw [Path.resolve_append hDirectory hFirst hSecond]
  have hOutcome :
      (shell.evaluate next input
          { world with
            directories :=
              { world.directories with
                current :=
                  world.directories.resolve
                    first } }).outcome =
        (shell.evaluate whole input world).outcome := by
    rw [evaluate_cd hCd hNext, evaluate_cd hCd hWhole,
      Run.outcome_after, Run.outcome_after]
    exact outcome_enter_cd rfl hPath
  refine ⟨hOutcome, ?_⟩
  intro hArrived
  have hNextArrived := hArrived
  rw [← hOutcome] at hNextArrived
  rw [world_evaluate_cd hCd hWhole hArrived,
    world_evaluate_cd hCd hNext hNextArrived, hPath]

/-
  In a shell paths compose. A path in two parts is resolved
  part by part, and two lines of `cd`, in whatever way they
  are quoted and spaced, lead where one line with the joined
  path leads: the second of them ends as that line does, and
  if it succeeds it leaves the same world. Absolute paths
  are the same from everywhere, and normal ones stay as they
  are.
-/
structure ComposesPaths
    (shell : Shell) : Prop where
  resolve_joined :
    ∀ directory first second,
      Path.isAbsolute directory = true →
        first ≠ "" →
          Path.isAbsolute second = false →
            Path.resolve (first ++ "/" ++ second) directory =
              Path.resolve second
                (Path.resolve first directory)
  two_steps :
    ∀ first second line next whole,
      first ≠ "" →
        Path.isAbsolute second = false →
          IsLineOf ["cd", first] line →
            IsLineOf ["cd", second] next →
              IsLineOf ["cd", first ++ "/" ++ second]
                  whole →
                ∀ input world there,
                  Path.isAbsolute
                      world.directories.current = true →
                    (shell.evaluate line input
                        world).outcome.isSuccess = true →
                      (shell.evaluate line input
                          world).world = there →
                        (shell.evaluate next input
                            there).outcome =
                          (shell.evaluate whole input
                            world).outcome ∧
                        ((shell.evaluate whole input
                            world).outcome.isSuccess =
                              true →
                          (shell.evaluate next input
                              there).world =
                            (shell.evaluate whole input
                              world).world)
  resolve_absolute :
    ∀ path,
      Path.isAbsolute path = true →
        ∀ here there,
          Path.resolve path here = Path.resolve path there
  resolve_normal :
    ∀ path,
      Path.isAbsolute path = true →
        Path.normalize path = path →
          ∀ here, Path.resolve path here = path

/- Where `cd` is what it is named for, paths compose. -/
theorem steps_compose
    {shell : Shell}
    (hCd :
      shell.registry.find? "cd" = some Navigation.cd) :
    shell.ComposesPaths := by
  constructor
  · intro directory first second hDirectory hFirst hSecond
    exact Path.resolve_append hDirectory hFirst hSecond
  · intro first second line next whole hFirst hSecond
      hLine hNext hWhole input world there hDirectory
      hSuccess hThere
    exact cd_joined hCd hFirst hSecond hLine hNext hWhole
      hDirectory hSuccess hThere
  · intro path hPath here there
    rw [Path.resolve_of_isAbsolute hPath,
      Path.resolve_of_isAbsolute hPath]
  · intro path hPath hNormal here
    rw [Path.resolve_of_isAbsolute hPath, hNormal]

/-
  A step down and two steps up lead past the start, as the
  joined path does.
-/
theorem step_up_past_start_composes :
    let shell : Shell :=
      ⟨Registry.standard Clock.unset Settings.standard, false⟩
    let world : World :=
      (shell.evaluate "mkdir b" none
        ⟨FileSystem.empty, ⟨"/a", "/a"⟩⟩).world
    let there := (shell.evaluate "cd 'b'" none world).world
    shell.registry.find? "cd" = some Navigation.cd ∧
      (shell.evaluate "cd 'b'" none
        world).outcome.isSuccess = true ∧
      (shell.evaluate "cd b/../.." none
        world).outcome.isSuccess = true ∧
      (shell.evaluate "cd  ../.." none there).world =
        (shell.evaluate "cd b/../.." none world).world ∧
      (shell.evaluate "cd b/../.." none
          world).world.directories =
        ⟨"/", "/a"⟩ := by
  intro shell world there
  have hCd :
      shell.registry.find? "cd" = some Navigation.cd := by
    rw [Registry.find?_standard_iff]
    refine ⟨?_, rfl, by decide⟩
    simp [Registry.standardCommands]
  have hSuccess :
      (shell.evaluate "cd 'b'" none
        world).outcome.isSuccess = true := by
    decide +kernel
  have hArrived :
      (shell.evaluate "cd b/../.." none
        world).outcome.isSuccess = true := by
    decide +kernel
  have hSame :=
    (steps_compose hCd).two_steps "b" "../.." "cd 'b'"
      "cd  ../.." "cd b/../.." (by decide) (by decide)
      (by rfl) (by rfl) (by rfl) none world there
      (by decide +kernel) hSuccess rfl
  exact
    ⟨hCd, hSuccess, hArrived, hSame.2 hArrived,
      by decide +kernel⟩

end Shell

end LineShell

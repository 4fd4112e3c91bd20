import LineShell.Proofs.Command.Standard
import LineShell.Proofs.Session.Status
import LineShell.Session.Terminal

/-
  Sessions with disabled commands. A disabled command is as
  if it had never been there: no line enters it, a stage that
  names it is answered as one that names no command, and it
  cannot be asked about. Nothing else about the disabled
  names makes a difference.

  Key definitions include:
    * `Shell.LeavesOut`

  Correctness is proven by:
    * `Shell.leavesOut_standard`
    * `Terminal.start_disabling`
    * `Registry.disabled_are_left_out`
-/

------------------------------------------------------------
-- Commands that are asked about
------------------------------------------------------------

namespace LineShell

/- Signatures are found under the names of commands. -/
theorem Registry.find?_signatures
    (registry : Registry)
    (name : String) :
    registry.signatures.find? (·.name = name) =
      (registry.find? name).map Command.signature := by
  unfold signatures find?
  rw [List.find?_map]
  rfl

namespace Guide

variable
    {name : String}
    {call : Call}
    (files : FileSystem)

/- A command that is not registered cannot be explained. -/
theorem explain_of_unknown
    {registry : Registry}
    (hFind : registry.find? name = none)
    (hCatalogue : call.catalogue = registry.signatures)
    (words : Signature → String) :
    explain call files name words =
      Answer.fail files (.noSuchCommand name) := by
  have hNone : call.describe? name = none := by
    rw [Call.describe?, hCatalogue,
      Registry.find?_signatures, hFind]
    rfl
  unfold explain lookUp
  rw [hNone]
  rfl

theorem run_help_of_name
    (hArgs : call.args = [name]) :
    help.run call files =
      explain call files name describeUse := by
  unfold help
  dsimp only
  rw [hArgs]

theorem run_args_of_name
    (hArgs : call.args = [name]) :
    args.run call files =
      explain call files name describeParams := by
  unfold args Call.arg
  dsimp only
  rw [hArgs]
  rfl

end Guide

end LineShell

------------------------------------------------------------
-- Commands that are left out
------------------------------------------------------------

namespace LineShell

namespace Shell

/-
  A shell leaves names out. No line enters a command of such
  a name. A stage that starts with one fails and changes
  nothing, as in any shell that knows no such command. The
  commands that explain others, unless they are left out
  themselves, fail if they are asked about one.
-/
structure LeavesOut
    (shell : Shell)
    (names : List String) : Prop where
  not_entered :
    ∀ line input world,
      ∀ name ∈ names,
        ∀ args,
          .entered name args ∉
            (shell.evaluate line input world).events
  not_found :
    ∀ toUser (turn : Turn),
      ∀ name ∈ names,
        ∀ args,
          turn.Reads (name :: args) →
            (turn.run shell toUser).outcome =
                .failure .commandNotFound
                  (name ++ ": command not found") ∧
              (turn.run shell toUser).world = turn.world ∧
              ∀ other : Shell,
                other.registry.find? name = none →
                  turn.run other toUser =
                    turn.run shell toUser
  not_explained :
    ∀ toUser (turn : Turn),
      ∀ name ∈ names,
        ∀ guide ∈ ["help", "args"],
          guide ∉ names →
            turn.Reads [guide, name] →
              (turn.run shell toUser).outcome =
                  .failure .genericError
                    (name ++ ": no such command") ∧
                (turn.run shell toUser).world = turn.world

end Shell

namespace Turn

variable
    {shell : Shell}
    {turn : Turn}
    {name : String}
    (toUser : Bool)

/-
  A command that explains others fails where it is asked
  about a name that is not registered.
-/
theorem run_explaining_unknown
    (guide : Command)
    {words : Signature → String}
    (hGuide :
      shell.registry.find? guide.name = some guide)
    (hAccepts : guide.signature.accepts 1 = true)
    (hExplain :
      ∀ (call : Call) files,
        call.args = [name] →
          guide.run call files =
            Guide.explain call files name words)
    (hReads : turn.Reads [guide.name, name])
    (hFind : shell.registry.find? name = none) :
    (turn.run shell toUser).outcome =
        .failure .genericError
          (name ++ ": no such command") ∧
      (turn.run shell toUser).world = turn.world := by
  rw [run_of_accepts toUser hReads hGuide hAccepts,
    Run.outcome_after, Run.world_after]
  unfold Shell.enter
  dsimp only
  rw [hExplain _ _ rfl,
    Guide.explain_of_unknown _ hFind rfl]
  exact ⟨rfl, rfl⟩

end Turn

namespace Shell

/- The standard registry leaves out what is disabled. -/
theorem leavesOut_standard
    (clock : Clock)
    (settings : Settings)
    (interactive : Bool) :
    LeavesOut ⟨Registry.standard clock settings, interactive⟩
      settings.disabled := by
  have hNone :
      ∀ name ∈ settings.disabled,
        (Registry.standard clock settings).find? name =
          none := by
    intro name hDisabled
    rw [Registry.find?_standard, if_pos hDisabled]
  constructor
  · intro line input world name hDisabled args hEntered
    rcases exists_command_of_entered_evaluate hEntered with
      ⟨command, hFind, _⟩
    rw [hNone name hDisabled] at hFind
    cases hFind
  · intro toUser turn name hDisabled args hReads
    have hRun :
        ∀ other : Shell,
          other.registry.find? name = none →
            turn.run other toUser = _ :=
      fun other => Turn.run_of_unknown toUser hReads
    rw [hRun _ (hNone name hDisabled)]
    refine ⟨rfl, rfl, ?_⟩
    intro other hOther
    exact hRun other hOther
  · intro toUser turn name hDisabled guide hGuide hEnabled
      hReads
    have hFind :
        ∀ command ∈ Registry.standardCommands clock settings,
          command.name = guide →
            (Registry.standard clock settings).find? guide =
              some command := by
      intro command hMem hName
      rw [Registry.find?_standard_iff]
      exact ⟨hMem, hName, hEnabled⟩
    simp only [List.mem_cons, List.not_mem_nil, or_false]
      at hGuide
    rcases hGuide with rfl | rfl
    · have hGuide :=
        hFind Guide.help (by simp [Registry.standardCommands])
          rfl
      exact Turn.run_explaining_unknown toUser Guide.help
        hGuide rfl
        (fun _ files => Guide.run_help_of_name files) hReads
        (hNone name hDisabled)
    · have hGuide :=
        hFind Guide.args (by simp [Registry.standardCommands])
          rfl
      exact Turn.run_explaining_unknown toUser Guide.args
        hGuide rfl
        (fun _ files => Guide.run_args_of_name files) hReads
        (hNone name hDisabled)

end Shell

end LineShell

------------------------------------------------------------
-- What else is disabled
------------------------------------------------------------

namespace LineShell

/-
  Terminals whose settings disable the same standard commands
  are the same.
-/
theorem Terminal.start_disabling
    {clock : Clock}
    {settings : Settings}
    {names : List String}
    (hSame :
      ∀ command ∈ Registry.standardCommands clock settings,
        command.name ∈ names ↔
          command.name ∈ settings.disabled)
    (interactive : Bool)
    (directory : String)
    (files : FileSystem) :
    start clock { settings with disabled := names }
        interactive directory files =
      start clock settings interactive directory files := by
  unfold start
  rw [Registry.standard_disabling clock settings hSame]

/-
  The standard registry with any commands that are registered
  later is the table of the commands that were registered
  last under their names, and otherwise of the standard
  commands that are not disabled. Without later commands, a
  shell leaves out what is disabled, and sessions in which
  the same standard commands are disabled are the same.
-/
theorem Registry.disabled_are_left_out
    (clock : Clock)
    (settings : Settings) :
    (∀ later,
      ((standard clock settings).insertAll later).IsTableOf
        fun name =>
          (later.reverse.find? (·.name = name)).or
            (if name ∈ settings.disabled then
              none
            else
              (standardCommands clock settings).find?
                (·.name = name))) ∧
      (∀ interactive,
        Shell.LeavesOut ⟨standard clock settings, interactive⟩
          settings.disabled) ∧
      ∀ names,
        (∀ command ∈ standardCommands clock settings,
          command.name ∈ names ↔
            command.name ∈ settings.disabled) →
          ∀ interactive directory files lines,
            let first :=
              Terminal.start clock settings interactive
                directory files
            let second :=
              Terminal.start clock
                { settings with disabled := names }
                interactive directory files
            second.runLines lines = first.runLines lines ∧
              (lines.foldl Terminal.after second).world =
                (lines.foldl Terminal.after first).world := by
  refine ⟨?_, Shell.leavesOut_standard clock settings, ?_⟩
  · intro later
    have hBelonging :
        ((standard clock settings).insertAll later).find? =
          fun name =>
            (later.reverse.find? (·.name = name)).or
              (if name ∈ settings.disabled then
                none
              else
                (standardCommands clock settings).find?
                  (·.name = name)) := by
      funext name
      rw [find?_insertAll, find?_standard]
    rw [← hBelonging]
    exact isTableOf_find? _
  · intro names hSame interactive directory files lines
    dsimp only
    rw [Terminal.start_disabling hSame]
    exact ⟨rfl, rfl⟩

/- To disable a ghost, or a command twice, is nothing more. -/
theorem Registry.ghosts_disable_nothing :
    let settings : Settings :=
      { Settings.standard with disabled := ["rm"] }
    let first :=
      Terminal.start Clock.unset settings false "/"
        FileSystem.empty
    let second :=
      Terminal.start Clock.unset
        { settings with disabled := ["rm", "ghost", "rm"] }
        false "/" FileSystem.empty
    second.runLines ["r'm' a", "help rm"] =
        first.runLines ["r'm' a", "help rm"] ∧
      (first.runLines ["r'm' a", "help rm"]).map
          Run.outcome =
        [.failure .commandNotFound "rm: command not found",
          .failure .genericError "rm: no such command"] := by
  intro settings first second
  have hSame :
      ∀ command ∈
          standardCommands Clock.unset settings,
        command.name ∈ ["rm", "ghost", "rm"] ↔
          command.name ∈ settings.disabled := by
    decide
  have hSessions :=
    (disabled_are_left_out Clock.unset settings).2.2
      ["rm", "ghost", "rm"] hSame false "/" FileSystem.empty
      ["r'm' a", "help rm"]
  exact ⟨hSessions.1, by decide +kernel⟩

end LineShell

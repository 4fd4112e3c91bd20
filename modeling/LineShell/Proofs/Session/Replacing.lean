import LineShell.Proofs.Session.Pipeline

/-
  Other commands in the place of those that a shell knows.
  Where each command has the same effect as the one that
  takes its place, so has each line.

  Key definitions include:
    * `Registry.replace`
    * `Shell.Replaces`
    * `Demand.replace`

  Correctness is proven by:
    * `Shell.demand_of_replaces`
    * `Shell.sameEffect_of_replaces`
-/

------------------------------------------------------------
-- Replaced commands
------------------------------------------------------------

namespace LineShell

namespace Registry

/- A registry with other commands of the same signatures. -/
def replace
    (change : Command → Command)
    (hSignature :
      ∀ command,
        (change command).signature = command.signature)
    (registry : Registry) : Registry where
  commands := registry.commands.map change
  sorted := by
    refine List.pairwise_map.2 (registry.sorted.imp ?_)
    intro first second hLess
    simpa [Command.name, hSignature] using hLess

variable
    (change : Command → Command)
    (hSignature :
      ∀ command,
        (change command).signature = command.signature)
    (registry : Registry)

theorem find?_replace
    (name : String) :
    (registry.replace change hSignature).find? name =
      (registry.find? name).map change := by
  unfold find? replace
  rw [List.find?_map]
  congr 2
  funext command
  apply decide_eq_decide.2
  simp only [Command.name, hSignature]

theorem signatures_replace :
    (registry.replace change hSignature).signatures =
      registry.signatures := by
  unfold signatures replace
  rw [List.map_map]
  congr 1
  funext command
  exact hSignature command

end Registry

/- What is asked for, with another command. -/
def Demand.replace
    (change : Command → Command) :
    Demand → Demand
  | .unclosed fault => .unclosed fault
  | .nothing => .nothing
  | .unknown name => .unknown name
  | .miscounted command name args =>
    .miscounted (change command) name args
  | .call command name args =>
    .call (change command) name args

namespace Shell

/-
  Under each name one shell knows what takes the place of
  the command that the other shell knows.
-/
structure Replaces
    (change : Command → Command)
    (first second : Shell) : Prop where
  find?_eq :
    ∀ name,
      second.registry.find? name =
        (first.registry.find? name).map change
  signature_eq :
    ∀ command,
      (change command).signature = command.signature

/- Each command of a registry is in its own place. -/
theorem replaces_of_registry_eq
    {first second : Shell}
    (hRegistry : second.registry = first.registry) :
    Replaces id first second := by
  constructor
  · intro name
    rw [hRegistry, Option.map_id, id]
  · intro command
    rfl

variable
    {change : Command → Command}
    {first second : Shell}

theorem demandOfWords_of_replaces
    (hReplaces : Replaces change first second)
    (words : List String) :
    second.demandOfWords words =
      (first.demandOfWords words).replace change := by
  cases words with
  | nil => rfl
  | cons name args =>
      have hFind := hReplaces.find?_eq name
      simp only [demandOfWords, hFind]
      cases first.registry.find? name with
      | none => rfl
      | some command =>
          simp only [Option.map_some,
            hReplaces.signature_eq command]
          split <;> rfl

/- A text asks both shells for the same. -/
theorem demand_of_replaces
    (hReplaces : Replaces change first second)
    (text : String) :
    second.demand text =
      (first.demand text).replace change := by
  unfold demand
  cases Scan.ofLine text with
  | error fault => rfl
  | ok scan =>
      exact demandOfWords_of_replaces hReplaces scan.words

/- Texts have the same effect where their calls have. -/
theorem sameEffect_runText
    (hReplaces : Replaces change first second)
    {shown other : Bool}
    (hEnter :
      ∀ name command args input world,
        first.registry.find? name = some command →
          (second.enter (change command) args input shown
              world).SameEffect
            (first.enter command args input other world))
    (text : String)
    (input : Option String)
    (world : World) :
    (second.runText text input shown world).SameEffect
      (first.runText text input other world) := by
  have hDemand := demand_of_replaces hReplaces text
  unfold runText
  rw [hDemand]
  cases hFirst : first.demand text with
  | unclosed fault => exact .refl _
  | nothing => exact .refl _
  | unknown name => exact .refl _
  | miscounted command name args =>
      simp only [Demand.replace,
        hReplaces.signature_eq command]
      exact .refl _
  | call command name args =>
      have hFind := (find?_of_demand_eq_call hFirst).1
      exact (hEnter name command args input world
        hFind).after _

/-
  Calls with the same effect make lines with the same
  effect, whether or not their texts go to a user.
-/
theorem sameEffect_of_replaces
    (hReplaces : Replaces change first second)
    {shown other : Bool}
    (hEnter :
      ∀ isFinal name command args input world,
        first.registry.find? name = some command →
          (second.enter (change command) args input
              (shown && isFinal) world).SameEffect
            (first.enter command args input
              (other && isFinal) world))
    (line : String)
    (input : Option String)
    (world : World) :
    (second.evaluateFor line input shown world).SameEffect
      (first.evaluateFor line input other world) := by
  have hStages :
      ∀ (stages : List Stage) (input : Option String)
          (world : World),
        (second.runStages shown stages input
            world).SameEffect
          (first.runStages other stages input world) := by
    intro stages
    induction stages with
    | nil =>
        intro input world
        exact .refl _
    | cons stage rest ih =>
        intro input world
        apply Run.SameEffect.andThen
        · apply Run.SameEffect.after
          exact sameEffect_runText hReplaces
            (hEnter stage.isFinal) _ _ _
        · exact ih
  have hCuts := Plan.cuts_ofLine line
  rw [evaluateFor_of_cuts hCuts, evaluateFor_of_cuts hCuts]
  apply Run.SameEffect.andThen
  · exact hStages _ input world
  · intro output world
    exact .refl _

end Shell

end LineShell

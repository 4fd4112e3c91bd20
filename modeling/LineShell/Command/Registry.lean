import LineShell.Command.Basic

/-
  This module defines registries: the commands that a
  session knows, in the order of their names.

  Key definitions include:
    * `Registry`
    * `Registry.insert`
    * `Registry.find?`
    * `Registry.signatures`

  The lemma `find?_insert` says what a registry knows after
  one more command was registered.
-/

namespace LineShell

namespace Command

/- The name of a command. -/
def name
    (command : Command) : String :=
  command.signature.name

end Command

------------------------------------------------------------
-- Rows of commands in order
------------------------------------------------------------

/-
  Commands in strictly ascending order of their names. Names
  are compared character by character, which is the order of
  their bytes.
-/
structure Registry where
  commands : List Command
  sorted :
    commands.Pairwise fun first second =>
      first.name < second.name

namespace Registry

/-
  A row of commands with one more at its place. A command of
  the same name gives way.
-/
def insertInto
    (command : Command) :
    List Command → List Command
  | [] => [command]
  | first :: rest =>
    if command.name < first.name then
      command :: first :: rest
    else if command.name = first.name then
      command :: rest
    else
      first :: insertInto command rest

theorem mem_insertInto
    {command other : Command}
    {commands : List Command}
    (h : other ∈ insertInto command commands) :
    other = command ∨ other ∈ commands := by
  induction commands with
  | nil => simpa [insertInto] using h
  | cons first rest ih =>
    unfold insertInto at h
    split at h
    · simpa using h
    · split at h
      · rcases List.mem_cons.1 h with rfl | hRest
        · exact Or.inl rfl
        · exact Or.inr (List.mem_cons_of_mem _ hRest)
      · rcases List.mem_cons.1 h with rfl | hRest
        · exact Or.inr (List.mem_cons_self ..)
        · exact (ih hRest).imp id (List.mem_cons_of_mem _)

theorem lt_of_not_lt_of_ne
    {first second : String}
    (hLt : ¬ first < second)
    (hNe : first ≠ second) :
    second < first := by
  rcases String.le_total first second with hLe | hLe
  · exact absurd (String.le_antisymm hLe
      (String.not_lt.1 hLt)) hNe
  · exact String.not_le.1 fun hLe' =>
      hNe (String.le_antisymm hLe' hLe)

theorem pairwise_insertInto
    {command : Command}
    {commands : List Command}
    (h : commands.Pairwise fun first second =>
      first.name < second.name) :
    (insertInto command commands).Pairwise
      fun first second => first.name < second.name := by
  induction commands with
  | nil => simp [insertInto]
  | cons first rest ih =>
    rcases List.pairwise_cons.1 h with ⟨hFirst, hRest⟩
    unfold insertInto
    split
    case isTrue hLt =>
      refine List.pairwise_cons.2 ⟨?_, h⟩
      intro other hOther
      rcases List.mem_cons.1 hOther with rfl | hOther
      · exact hLt
      · exact String.lt_trans hLt (hFirst other hOther)
    case isFalse hLt =>
      split
      case isTrue hEq =>
        refine List.pairwise_cons.2 ⟨?_, hRest⟩
        intro other hOther
        exact hEq ▸ hFirst other hOther
      case isFalse hNe =>
        refine List.pairwise_cons.2 ⟨?_, ih hRest⟩
        intro other hOther
        rcases mem_insertInto hOther with rfl | hOther
        · exact lt_of_not_lt_of_ne hLt hNe
        · exact hFirst other hOther

------------------------------------------------------------
-- Registries
------------------------------------------------------------

/- The registry without commands. -/
def empty : Registry :=
  ⟨[], List.Pairwise.nil⟩

/-
  A registry with one more command, which replaces any other
  of its name.
-/
def insert
    (registry : Registry)
    (command : Command) : Registry :=
  ⟨insertInto command registry.commands,
    pairwise_insertInto registry.sorted⟩

/- The command that is registered under a name. -/
def find?
    (registry : Registry)
    (name : String) : Option Command :=
  registry.commands.find? (·.name = name)

/- A name is registered. -/
def contains
    (registry : Registry)
    (name : String) : Bool :=
  (registry.find? name).isSome

/- What is known of each command, in the order of names. -/
def signatures
    (registry : Registry) : List Signature :=
  registry.commands.map (·.signature)

/- The number of registered commands. -/
def size
    (registry : Registry) : Nat :=
  registry.commands.length

/- The last command that was registered under a name counts. -/
theorem find?_insert
    (registry : Registry)
    (command : Command)
    (name : String) :
    (registry.insert command).find? name =
      if command.name = name then
        some command
      else
        registry.find? name := by
  simp only [find?, insert]
  have hSorted := registry.sorted
  revert hSorted
  induction registry.commands with
  | nil =>
    intro _
    by_cases h : command.name = name <;>
      simp [insertInto, h]
  | cons first rest ih =>
    intro hSorted
    have ih := ih (List.pairwise_cons.1 hSorted).2
    unfold insertInto
    split
    · by_cases h : command.name = name <;>
        simp [List.find?_cons, h]
    · split
      case isTrue hEq =>
        by_cases h : command.name = name
        · simp [h]
        · have hFirst : ¬ first.name = name := hEq ▸ h
          simp [h, hFirst]
      case isFalse hNe =>
        by_cases hFirst : first.name = name
        · have h : ¬ command.name = name :=
            fun h => hNe (h.trans hFirst.symm)
          simp [hFirst, h]
        · simp only [List.find?_cons, hFirst,
            decide_false]
          exact ih

end Registry

end LineShell

import LineShell.Command.Standard
import LineShell.Proofs.Text.Order

/-
  Registries as tables. Under each name the command is found
  that was registered last, and the signatures of a registry
  are those of the commands that are found in it, each once
  and in the order of names.

  Key definitions include:
    * `Registry.IsTableOf`

  Correctness is proven by:
    * `Registry.find?_insertAll`
    * `Registry.find?_eq_some_iff`
    * `Registry.isTableOf_find?`
-/

------------------------------------------------------------
-- Commands with distinct names
------------------------------------------------------------

namespace LineShell

variable
    {name : String}
    {command : Command}

/- Of commands with distinct names one at most has a name. -/
theorem Command.find?_eq_some_iff_of_nodup
    {commands : List Command}
    (hDistinct : (commands.map Command.name).Nodup) :
    commands.find? (·.name = name) = some command ↔
      command ∈ commands ∧ command.name = name := by
  induction commands with
  | nil => simp
  | cons first rest ih =>
      rcases List.nodup_cons.1 hDistinct with
        ⟨hFirst, hRest⟩
      by_cases hName : first.name = name
      · rw [List.find?_cons_of_pos (by simpa using hName),
          Option.some.injEq]
        constructor
        · rintro rfl
          exact ⟨List.mem_cons_self, hName⟩
        · rintro ⟨hMem, hSame⟩
          rcases List.mem_cons.1 hMem with rfl | hMem
          · rfl
          · have hTwice :
                command.name ∈ rest.map Command.name :=
              List.mem_map_of_mem hMem
            rw [hSame, ← hName] at hTwice
            exact absurd hTwice hFirst
      · rw [List.find?_cons_of_neg (by simpa using hName),
          ih hRest, List.mem_cons]
        constructor
        · rintro ⟨hMem, hSame⟩
          exact ⟨Or.inr hMem, hSame⟩
        · rintro ⟨rfl | hMem, hSame⟩
          · exact absurd hSame hName
          · exact ⟨hMem, hSame⟩

namespace Registry

/-
  Of commands that were registered one after the other the
  last one of a name is found, and if there is none, what was
  found before.
-/
theorem find?_insertAll
    (registry : Registry)
    (commands : List Command)
    (name : String) :
    (registry.insertAll commands).find? name =
      (commands.reverse.find? (·.name = name)).or
        (registry.find? name) := by
  induction commands generalizing registry with
  | nil => rfl
  | cons first rest ih =>
      have hStep :
          registry.insertAll (first :: rest) =
            (registry.insert first).insertAll rest :=
        rfl
      rw [hStep, ih, find?_insert, List.reverse_cons,
        List.find?_append, Option.or_assoc]
      by_cases hName : first.name = name <;> simp [hName]

end Registry

end LineShell

------------------------------------------------------------
-- What a registry lists
------------------------------------------------------------

namespace LineShell

namespace Registry

/-
  A registry is a table of the commands that belong to
  names. It lists the signatures of these commands and no
  others, in strictly ascending order of the bytes of their
  names, so that none is listed twice, and its size is the
  number of what it lists.
-/
structure IsTableOf
    (registry : Registry)
    (belonging : String → Option Command) : Prop where
  find?_eq :
    ∀ name, registry.find? name = belonging name
  mem_signatures_iff :
    ∀ signature,
      signature ∈ registry.signatures ↔
        ∃ command,
          belonging signature.name = some command ∧
            command.signature = signature
  ascending :
    registry.signatures.Pairwise fun first second =>
      Utf8.bytes first.name < Utf8.bytes second.name
  size_eq : registry.size = registry.signatures.length

variable
    (registry : Registry)
    {name : String}
    {command : Command}

/- No two commands of a registry have the same name. -/
theorem nodup_names :
    (registry.commands.map Command.name).Nodup := by
  rw [List.nodup_iff_pairwise_ne, List.pairwise_map]
  refine registry.sorted.imp ?_
  intro first second hLess hSame
  rw [hSame] at hLess
  exact String.lt_irrefl _ hLess

theorem find?_eq_some_iff :
    registry.find? name = some command ↔
      command ∈ registry.commands ∧ command.name = name :=
  Command.find?_eq_some_iff_of_nodup registry.nodup_names

/- A registry holds nothing but what is found in it. -/
theorem eq_of_find?_eq
    {first second : Registry}
    (hSame :
      ∀ name, first.find? name = second.find? name) :
    first = second := by
  have hNodup :
      ∀ registry : Registry, registry.commands.Nodup := by
    intro registry
    rw [List.nodup_iff_pairwise_ne]
    refine registry.sorted.imp ?_
    rintro command _ hLess rfl
    exact String.lt_irrefl _ hLess
  have hMem :
      ∀ command,
        command ∈ first.commands ↔
          command ∈ second.commands := by
    intro command
    have hFirst :
        first.find? command.name = some command ↔
          command ∈ first.commands := by
      simp [find?_eq_some_iff]
    have hSecond :
        second.find? command.name = some command ↔
          command ∈ second.commands := by
      simp [find?_eq_some_iff]
    rw [← hFirst, ← hSecond, hSame]
  have hCommands : first.commands = second.commands := by
    apply List.Perm.eq_of_pairwise
      (fun command other _ _ hLess hGreater =>
        absurd hGreater (String.lt_asymm hLess))
      first.sorted second.sorted
    exact (List.perm_ext_iff_of_nodup (hNodup first)
      (hNodup second)).2 hMem
  cases first
  cases second
  cases hCommands
  rfl

/- A registry is a table of what is found in it. -/
theorem isTableOf_find? :
    registry.IsTableOf registry.find? := by
  constructor
  · intro name
    rfl
  · intro signature
    unfold signatures
    rw [List.mem_map]
    constructor
    · rintro ⟨command, hMem, rfl⟩
      exact
        ⟨command, registry.find?_eq_some_iff.2 ⟨hMem, rfl⟩,
          rfl⟩
    · rintro ⟨command, hFind, hSignature⟩
      exact
        ⟨command, (registry.find?_eq_some_iff.1 hFind).1,
          hSignature⟩
  · unfold signatures
    rw [List.pairwise_map]
    refine registry.sorted.imp ?_
    intro first second hLess
    exact Utf8.bytes_lt_bytes_iff.2 hLess
  · unfold size signatures
    rw [List.length_map]

end Registry

end LineShell

import LineShell.Proofs.Command.Registered

/-
  What the standard registry knows. A name is found in it
  exactly when it is the name of a standard command that the
  settings do not disable, and of these commands only `cd`
  may change the directory.

  Key definitions include:
    * `Registry.OnlyCdMoves`
    * `Command.IgnoresUser`

  Correctness is proven by:
    * `Registry.find?_standard_iff`
    * `Registry.find?_standard`
    * `Registry.standard_disabling`
    * `Registry.onlyCdMoves_standard`
    * `Registry.ignoresUser_standard`
-/

------------------------------------------------------------
-- Which commands are found
------------------------------------------------------------

namespace LineShell

namespace Registry

variable
    {name : String}
    {command : Command}
    (clock : Clock)
    (settings : Settings)
    {replies : Option (List UInt8)}

/- No two standard commands have the same name. -/
theorem nodup_standardCommands :
    ((standardCommands clock settings replies).map
      Command.name).Nodup := by
  have hNames :
      (standardCommands clock settings replies).map
          Command.name =
        ["args", "cat", "cd", "clear", "cp", "date", "help",
          "ls", "mkdir", "more", "mv", "pwd", "rm",
          "rmdir"] :=
    rfl
  rw [hNames]
  decide

/-
  The standard registry knows the standard commands that are
  not disabled.
-/
theorem find?_standard_iff :
    (standard clock settings replies).find? name =
        some command ↔
      command ∈ standardCommands clock settings replies ∧
        command.name = name ∧
          name ∉ settings.disabled := by
  have hDistinct :
      (((standardCommands clock settings replies).filter
          fun command =>
            command.name ∉ settings.disabled).reverse.map
        Command.name).Nodup := by
    rw [List.map_reverse, (List.reverse_perm _).nodup_iff]
    exact (nodup_standardCommands clock settings).sublist
      (List.filter_sublist.map _)
  have hNone : empty.find? name = none := rfl
  rw [standard, find?_insertAll, hNone, Option.or_none,
    Command.find?_eq_some_iff_of_nodup hDistinct,
    List.mem_reverse, List.mem_filter, decide_eq_true_eq]
  constructor
  · rintro ⟨⟨hMem, hEnabled⟩, rfl⟩
    exact ⟨hMem, rfl, hEnabled⟩
  · rintro ⟨hMem, rfl, hEnabled⟩
    exact ⟨⟨hMem, hEnabled⟩, rfl⟩

/-
  A name that is not disabled stands in the standard
  registry for the standard command of that name.
-/
theorem find?_standard
    (name : String) :
    (standard clock settings replies).find? name =
      if name ∈ settings.disabled then
        none
      else
        (standardCommands clock settings replies).find?
          (·.name = name) := by
  apply Option.ext
  intro command
  rw [find?_standard_iff]
  split
  case isTrue hDisabled => simp [hDisabled]
  case isFalse hEnabled =>
    rw [Command.find?_eq_some_iff_of_nodup
      (nodup_standardCommands clock settings)]
    simp [hEnabled]

/-
  Of what is disabled only the names of standard commands
  count, in any order and any number of times.
-/
theorem standard_disabling
    {names : List String}
    (hSame :
      ∀ command ∈ standardCommands clock settings,
        command.name ∈ names ↔
          command.name ∈ settings.disabled) :
    standard clock { settings with disabled := names } =
      standard clock settings := by
  unfold standard
  congr 1
  apply List.filter_congr
  intro command hMem
  exact decide_eq_decide.2 (not_congr (hSame command hMem))

/- Unless it is disabled the standard registry knows `cat`. -/
theorem find?_cat_standard
    (hEnabled : "cat" ∉ settings.disabled) :
    (standard clock settings).find? "cat" =
      some Reading.cat := by
  rw [find?_standard_iff]
  refine ⟨?_, rfl, hEnabled⟩
  simp [standardCommands]

end Registry

end LineShell

------------------------------------------------------------
-- Which commands may change the directory
------------------------------------------------------------

namespace LineShell

namespace Registry

/-
  In a registry the name `cd` stands for nothing else, and no
  other command may change the directory.
-/
structure OnlyCdMoves
    (registry : Registry) : Prop where
  named :
    ∀ command,
      registry.find? "cd" = some command →
        command = Navigation.cd
  moving :
    ∀ name command,
      registry.find? name = some command →
        command.signature.changesDirectory = true →
          command = Navigation.cd

/- Of the standard commands only `cd` moves. -/
theorem onlyCdMoves_standard
    (clock : Clock)
    (settings : Settings) :
    (standard clock settings).OnlyCdMoves := by
  constructor
  · intro command hFind
    rcases (find?_standard_iff clock settings).1 hFind with
      ⟨hMem, hName, hEnabled⟩
    have hNamed :
        (standardCommands clock settings).filter
            (·.name = "cd") =
          [Navigation.cd] :=
      rfl
    apply List.mem_singleton.1
    rw [← hNamed]
    exact List.mem_filter.2 ⟨hMem, decide_eq_true hName⟩
  · intro name command hFind hMoves
    rcases (find?_standard_iff clock settings).1 hFind with
      ⟨hMem, hName, hEnabled⟩
    have hMoving :
        (standardCommands clock settings).filter
            (·.signature.changesDirectory) =
          [Navigation.cd] :=
      rfl
    apply List.mem_singleton.1
    rw [← hMoving]
    exact List.mem_filter.2 ⟨hMem, hMoves⟩

end Registry

end LineShell

------------------------------------------------------------
-- Commands that need no user
------------------------------------------------------------

namespace LineShell

/- A call whose text goes to a user, or not. -/
def Call.shownTo
    (call : Call)
    (toUser : Bool) : Call :=
  { call with interactive := toUser }

theorem Call.resolve_shownTo
    (call : Call)
    (toUser : Bool) :
    (call.shownTo toUser).resolve = call.resolve :=
  rfl

theorem Call.arg_shownTo
    (call : Call)
    (toUser : Bool) :
    (call.shownTo toUser).arg = call.arg :=
  rfl

/-
  Whether its text goes to a user makes no difference to a
  command.
-/
def Command.IgnoresUser
    (command : Command) : Prop :=
  ∀ (call : Call) (files : FileSystem) (toUser : Bool),
    command.run (call.shownTo toUser) files =
      command.run call files

theorem FileManagement.ignoresUser_cp :
    cp.IgnoresUser := by
  intro call files toUser
  unfold cp
  dsimp only
  rw [Call.resolve_shownTo, Call.arg_shownTo]

theorem FileManagement.ignoresUser_mv :
    mv.IgnoresUser := by
  intro call files toUser
  unfold mv
  dsimp only
  rw [Call.resolve_shownTo, Call.arg_shownTo]

namespace Registry

/- It makes no difference to any command of a registry. -/
def IgnoresUser
    (registry : Registry) : Prop :=
  ∀ name command,
    registry.find? name = some command →
      command.IgnoresUser

theorem ignoresUser_standard
    (clock : Clock)
    (settings : Settings) :
    (standard clock settings).IgnoresUser := by
  intro name command hFind
  have hMem :=
    ((find?_standard_iff clock settings).1 hFind).1
  simp only [standardCommands, List.mem_cons,
    List.not_mem_nil, or_false] at hMem
  rcases hMem with hArgs | hCat | hCd | hClear | hCp |
    hDate | hHelp | hLs | hMkdir | hMore | hMv | hPwd |
    hRm | hRmdir
  case inr.inr.inr.inr.inl =>
    rw [hCp]
    exact FileManagement.ignoresUser_cp
  case inr.inr.inr.inr.inr.inr.inr.inr.inr.inr.inl =>
    rw [hMv]
    exact FileManagement.ignoresUser_mv
  all_goals
    subst command
    intro call files toUser
    rfl

end Registry

end LineShell

import LineShell.Proofs.Command.Standard
import LineShell.Proofs.Session.Replacing
import LineShell.Session.Terminal

/-
  Sessions with and without a user. The standard commands
  do the same for both, and so do all lines: two terminals
  that are alike stay alike, and the outcomes are the same.
  Where input and output are those of a user, `more` shows
  pages instead of handing its text on, and only there.

  Key definitions include:
    * `Terminal.IsLike`
    * `Reading.paged`

  Correctness is proven by:
    * `Shell.sameEffect_of_ignoresUser`
    * `Terminal.IsLike.after_lines`
    * `Terminal.IsLike.outcomes_eq`
    * `Reading.run_more_for_user`
    * `Registry.standard_replies_eq`
    * `Shell.sameEffect_of_replies`
-/

------------------------------------------------------------
-- Lines that are shown to a user or not
------------------------------------------------------------

namespace LineShell

namespace Shell

variable
    {first second : Shell}
    {command : Command}

/- A call of the command is the same call for both shells. -/
theorem enter_of_ignoresUser
    (hRegistry : second.registry = first.registry)
    (hIgnores : command.IgnoresUser)
    (args : List String)
    (input : Option String)
    (shown other : Bool)
    (world : World) :
    second.enter command args input shown world =
      first.enter command args input other world := by
  have hAnswer :=
    hIgnores
      { args := args
        input :=
          if command.signature.acceptsInput then
            input
          else
            none
        directories := world.directories
        catalogue := first.registry.signatures
        interactive := other }
      world.files shown
  unfold enter
  rw [hRegistry]
  dsimp only
  rw [← hAnswer]
  rfl

/-
  Where no command looks for a user, lines have the same
  effect with and without one.
-/
theorem sameEffect_of_ignoresUser
    (hRegistry : second.registry = first.registry)
    (hIgnores : first.registry.IgnoresUser)
    (shown other : Bool)
    (line : String)
    (input : Option String)
    (world : World) :
    (second.evaluateFor line input shown world).SameEffect
      (first.evaluateFor line input other world) := by
  apply sameEffect_of_replaces
    (replaces_of_registry_eq hRegistry)
  intro isFinal name command args input world hFind
  have hCommand := hIgnores name command hFind
  rw [id, enter_of_ignoresUser hRegistry hCommand args input
    (shown && isFinal) (other && isFinal) world]
  exact .refl _

end Shell

end LineShell

------------------------------------------------------------
-- Terminals that are alike
------------------------------------------------------------

namespace LineShell

namespace Terminal

/- Terminals know the same commands and are as far. -/
structure IsLike
    (first second : Terminal) : Prop where
  registry_eq :
    second.shell.registry = first.shell.registry
  world_eq : second.world = first.world

namespace IsLike

variable
    {first second : Terminal}

theorem sameEffect_runLine
    (hLike : first.IsLike second)
    (hIgnores : first.shell.registry.IgnoresUser)
    (line : String) :
    (second.runLine line).SameEffect
      (first.runLine line) := by
  unfold runLine
  rw [hLike.world_eq]
  exact Shell.sameEffect_of_ignoresUser hLike.registry_eq
    hIgnores _ _ line none first.world

/- A line leaves terminals alike. -/
theorem after
    (hLike : first.IsLike second)
    (hIgnores : first.shell.registry.IgnoresUser)
    (line : String) :
    (first.after line).IsLike (second.after line) := by
  constructor
  · exact hLike.registry_eq
  · exact (hLike.sameEffect_runLine hIgnores line).world_eq

end IsLike

end Terminal

end LineShell

------------------------------------------------------------
-- Pages for a user
------------------------------------------------------------

namespace LineShell

namespace Reading

variable
    {call : Call}
    (pageLines : Nat)
    (replies : List UInt8)

/-
  For a user `more` fails where it fails for others. Of what
  it would hand on it shows the pages, and it fails again if
  a reply to them is no text.
-/
theorem run_more_for_user
    (hShown : call.interactive = true)
    (files : FileSystem) :
    (more pageLines (some replies)).run call files =
      match ((more pageLines none).run call files).result with
      | .error fault => Answer.fail files fault
      | .ok text =>
        if
            (Paging.page (text.getD "") (max pageLines 1)
              replies).unreadable then
          Answer.fail files
            (.failed
              ("more: " ++
                Paging.Showing.unreadableMessage))
        else
          Answer.plain files none := by
  simp only [more, hShown, showPages, showSource]
  cases sourceText "more" call files with
  | error fault => rfl
  | ok text => rfl

/- For others the replies of a user make no difference. -/
theorem run_more_for_others
    (hHidden : call.interactive = false)
    (files : FileSystem) :
    (more pageLines (some replies)).run call files =
      (more pageLines none).run call files := by
  simp only [more, hHidden]

/- The reader that shows pages, in the place of the other. -/
def paged
    (command : Command) : Command :=
  if command.signature = (more pageLines none).signature then
    more pageLines (some replies)
  else
    command

theorem signature_paged
    (command : Command) :
    (paged pageLines replies command).signature =
      command.signature := by
  unfold paged
  split
  case isTrue hMore => exact hMore.symm
  case isFalse => rfl

end Reading

namespace Registry

variable
    (clock : Clock)
    (settings : Settings)
    (replies : List UInt8)

/- With replies only the reader that shows pages is another. -/
theorem standard_replies_eq :
    standard clock settings (some replies) =
      (standard clock settings).replace
        (Reading.paged settings.pageLines replies)
        (Reading.signature_paged settings.pageLines
          replies) := by
  have hCommands :
      standardCommands clock settings (some replies) =
        (standardCommands clock settings).map
          (Reading.paged settings.pageLines replies) :=
    rfl
  apply eq_of_find?_eq
  intro name
  rw [find?_replace, find?_standard, find?_standard,
    hCommands, List.find?_map]
  split
  case isTrue => rfl
  case isFalse =>
    congr 2
    funext command
    apply decide_eq_decide.2
    simp only [Command.name, Reading.signature_paged]

end Registry

/- A call that is not for the user is the same for both. -/
theorem Shell.enter_paged
    {first second : Shell}
    {clock : Clock}
    {settings : Settings}
    (replies : List UInt8)
    (hSignatures :
      second.registry.signatures =
        first.registry.signatures)
    {name : String}
    {command : Command}
    (hFind :
      (Registry.standard clock settings).find? name =
        some command)
    (args : List String)
    (input : Option String)
    (world : World) :
    second.enter
        (Reading.paged settings.pageLines replies command)
        args input false world =
      first.enter command args input false world := by
  have hMore :
      (Registry.standardCommands clock settings).filter
          (·.signature =
            (Reading.more settings.pageLines
              none).signature) =
        [Reading.more settings.pageLines none] :=
    rfl
  unfold Reading.paged
  split
  case isTrue hSignature =>
    have hMem :
        command ∈
          [Reading.more settings.pageLines none] := by
      rw [← hMore]
      exact List.mem_filter.2
        ⟨((Registry.find?_standard_iff clock settings).1
            hFind).1,
          decide_eq_true hSignature⟩
    rw [List.mem_singleton.1 hMem]
    unfold enter
    rw [hSignatures]
    rfl
  case isFalse =>
    unfold enter
    rw [hSignatures]

/-
  What is piped on or redirected, and all that is before it,
  has the same effect whether or not a user could reply.
-/
theorem Shell.sameEffect_of_replies
    {first second : Shell}
    {clock : Clock}
    {settings : Settings}
    {replies : List UInt8}
    (hFirst :
      first.registry = Registry.standard clock settings)
    (hSecond :
      second.registry =
        Registry.standard clock settings (some replies))
    (line : String)
    (input : Option String)
    (world : World) :
    (second.evaluateFor line input false world).SameEffect
      (first.evaluateFor line input false world) := by
  have hRegistry :=
    hSecond.trans
      (Registry.standard_replies_eq clock settings replies)
  have hSignatures :
      second.registry.signatures =
        first.registry.signatures := by
    rw [hRegistry, Registry.signatures_replace, hFirst]
  have hReplaces :
      Replaces (Reading.paged settings.pageLines replies)
        first second := by
    constructor
    · intro name
      rw [hRegistry, Registry.find?_replace, hFirst]
    · exact Reading.signature_paged _ _
  apply sameEffect_of_replaces hReplaces
  intro isFinal name command args input world hFind
  rw [hFirst] at hFind
  rw [Bool.false_and,
    enter_paged replies hSignatures hFind]
  exact .refl _

end LineShell

import LineShell.Proofs.Command.Standard
import LineShell.Proofs.Settings.Overlay

/-
  Choices that are merged into settings. The disabled names
  are those that stay, in their old order, and behind them
  the chosen ones that are new, each where it occurs first.
  A choice that is made once more may order these names in
  another way, and that is all.

  Key definitions include:
    * `Settings.ActsLike`
    * `Overlay.kept`
    * `Overlay.IsMerged`

  Correctness is proven by:
    * `Overlay.mem_mergeList_iff`
    * `Overlay.nodup_mergeList`
    * `Overlay.actsLike_apply_apply`
    * `Overlay.apply_merges_once`
-/

------------------------------------------------------------
-- Merged names
------------------------------------------------------------

namespace LineShell

namespace Overlay

variable
    (base added removed : List String)

/- Names that are not replaced stay, and new ones follow. -/
theorem mergeList_extended :
    mergeList base added removed false =
      base.filter (· ∉ removed) ++
        (added.filter
          (· ∉ base.filter (· ∉ removed))).eraseDups :=
  addNew_eq (base.filter (· ∉ removed)) added

theorem mem_addNew_iff
    (name : String) :
    name ∈ addNew base added ↔
      name ∈ base ∨ name ∈ added := by
  rw [addNew_eq, List.mem_append, List.mem_eraseDups,
    List.mem_filter, decide_eq_true_eq]
  by_cases hOld : name ∈ base
  · simp [hOld]
  · simp [hOld]

/-
  A name is merged if it is added, or if it is there and not
  removed.
-/
theorem mem_mergeList_iff
    (name : String) :
    name ∈ mergeList base added removed false ↔
      name ∈ added ∨ name ∈ base ∧ name ∉ removed := by
  have hMem :
      name ∈ mergeList base added removed false ↔
        name ∈ base.filter (· ∉ removed) ∨ name ∈ added :=
    mem_addNew_iff _ added name
  rw [hMem, List.mem_filter, decide_eq_true_eq, or_comm]

/- Merging repeats no name that was not repeated before. -/
theorem nodup_mergeList
    (hBase : base.Nodup) :
    (mergeList base added removed false).Nodup := by
  rw [mergeList_extended, List.nodup_append]
  refine ⟨hBase.filter _, nodup_eraseDups _, ?_⟩
  rintro old hOld new hNew rfl
  rw [List.mem_eraseDups, List.mem_filter,
    decide_eq_true_eq] at hNew
  exact hNew.2 hOld

/- What is merged once more has the same names. -/
theorem mem_mergeList_again_iff
    (replace : Bool)
    (name : String) :
    name ∈
        mergeList (mergeList base added removed replace)
          added removed replace ↔
      name ∈ mergeList base added removed replace := by
  cases replace with
  | true => exact Iff.rfl
  | false =>
      rw [mem_mergeList_iff, mem_mergeList_iff]
      by_cases hAdded : name ∈ added
      · simp [hAdded]
      · simp [hAdded]

/- A name that is removed and added moves to the end. -/
example :
    mergeList ["rm"] ["cp", "mv"] ["cp"] false =
        ["rm", "cp", "mv"] ∧
      mergeList ["rm", "cp", "mv"] ["cp", "mv"] ["cp"]
          false =
        ["rm", "mv", "cp"] := by
  decide

end Overlay

end LineShell

------------------------------------------------------------
-- Choices that are made once more
------------------------------------------------------------

namespace LineShell

/-
  Settings that differ in the order of the disabled names
  and their repeats at most. They disable the same names and
  make the same commands.
-/
structure Settings.ActsLike
    (settings other : Settings) : Prop where
  scalars :
    { settings with disabled := other.disabled } = other
  disabled :
    ∀ name,
      name ∈ settings.disabled ↔ name ∈ other.disabled
  commands :
    ∀ clock,
      Registry.standard clock settings =
        Registry.standard clock other

namespace Overlay

/- The names that a choice leaves where they are. -/
def kept
    (overlay : Overlay)
    (names : List String) : List String :=
  names.filter (· ∉ overlay.removeDisabled)

/-
  Settings after a choice. Without a wish to replace names,
  those that stay come first, and those that are new follow
  in the order of the choice. To choose the same again is to
  choose it once.
-/
structure IsMerged
    (overlay : Overlay)
    (before after : Settings) : Prop where
  replaced :
    overlay.replace = true →
      after.disabled = overlay.disabled
  extended :
    overlay.replace = false →
      after.disabled =
        overlay.kept before.disabled ++
          (overlay.disabled.filter
            (· ∉ overlay.kept before.disabled)).eraseDups
  mem_iff :
    overlay.replace = false →
      ∀ name,
        name ∈ after.disabled ↔
          name ∈ overlay.disabled ∨
            name ∈ before.disabled ∧
              name ∉ overlay.removeDisabled
  nodup :
    overlay.replace = false →
      before.disabled.Nodup → after.disabled.Nodup
  again : (overlay.apply after).ActsLike after

variable
    (overlay : Overlay)
    (settings : Settings)

/- A scalar that is chosen again is chosen already. -/
theorem getD_getD
    {α : Type}
    (choice : Option α)
    (value : α) :
    choice.getD (choice.getD value) = choice.getD value := by
  cases choice <;> rfl

theorem actsLike_apply_apply :
    (overlay.apply (overlay.apply settings)).ActsLike
      (overlay.apply settings) := by
  have hScalars :
      { overlay.apply (overlay.apply settings) with
          disabled := (overlay.apply settings).disabled } =
        overlay.apply settings := by
    simp only [apply, getD_getD]
  have hDisabled :
      ∀ name,
        name ∈
            (overlay.apply
              (overlay.apply settings)).disabled ↔
          name ∈ (overlay.apply settings).disabled := by
    exact mem_mergeList_again_iff _ _ _ _
  refine ⟨hScalars, hDisabled, ?_⟩
  intro clock
  -- Of the disabled names only the set counts.
  have hSame :=
    Registry.standard_disabling clock
      (overlay.apply (overlay.apply settings))
      fun command _ => (hDisabled command.name).symm
  rw [hScalars] at hSame
  exact hSame.symm

/-
  A choice is merged into settings as a user may expect, and
  it is merged once, however often it is made.
-/
theorem apply_merges_once :
    overlay.IsMerged settings (overlay.apply settings) where
  replaced := by
    intro hReplace
    simp [apply, mergeList, hReplace]
  extended := by
    intro hExtend
    have hMerged :=
      mergeList_extended settings.disabled overlay.disabled
        overlay.removeDisabled
    rw [← hExtend] at hMerged
    exact hMerged
  mem_iff := by
    intro hExtend
    have hMem :=
      mem_mergeList_iff settings.disabled overlay.disabled
        overlay.removeDisabled
    rw [← hExtend] at hMem
    exact hMem
  nodup := by
    intro hExtend hNodup
    have hMerged :=
      nodup_mergeList settings.disabled overlay.disabled
        overlay.removeDisabled hNodup
    rw [← hExtend] at hMerged
    exact hMerged
  again := overlay.actsLike_apply_apply settings

end Overlay

end LineShell

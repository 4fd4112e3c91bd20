import LineShell.Proofs.Settings.Fields

/-
  What a user's choices make of settings. Names that are
  added come behind those that are there, each of them once;
  and a count that is loaded is one that can be written.

  Key definitions include:
    * `Overlay.Section.IsBounded`

  Correctness is proven by:
    * `eraseDups_of_nodup`
    * `Overlay.addNew_eq`
    * `Settings.isInRange_pageLines_load`
-/

------------------------------------------------------------
-- Lists without repeats
------------------------------------------------------------

namespace LineShell

/- Without its repeats a list holds everything once. -/
theorem nodup_eraseDups
    (names : List String) :
    names.eraseDups.Nodup := by
  induction hLength : names.length
    using Nat.strongRecOn generalizing names with
  | ind length ih =>
      cases names with
      | nil => simp
      | cons name others =>
          have hShorter :
              (others.filter fun other =>
                !(other == name)).length < length := by
            have hLe :=
              List.length_filter_le
                (fun other => !(other == name)) others
            rw [List.length_cons] at hLength
            omega
          rw [List.eraseDups_cons, List.nodup_cons]
          refine ⟨?_, ih _ hShorter _ rfl⟩
          rw [List.mem_eraseDups, List.mem_filter]
          simp

/- A list that holds everything once has no repeats. -/
theorem eraseDups_of_nodup
    {names : List String}
    (hNodup : names.Nodup) :
    names.eraseDups = names := by
  induction names with
  | nil => rfl
  | cons name others ih =>
      rcases List.nodup_cons.1 hNodup with ⟨hName, hOthers⟩
      have hFilter :
          (others.filter fun other => !(other == name)) =
            others := by
        apply List.filter_eq_self.2
        intro other hMem
        have hOther : other ≠ name := by
          rintro rfl
          exact hName hMem
        simpa using hOther
      rw [List.eraseDups_cons, hFilter, ih hOthers]

end LineShell

------------------------------------------------------------
-- Added names
------------------------------------------------------------

namespace LineShell

namespace Overlay

/-
  What is added to a list are the names that it does not
  have, without repeats.
-/
theorem addNew_eq
    (base added : List String) :
    addNew base added =
      base ++ (added.filter (· ∉ base)).eraseDups := by
  induction added generalizing base with
  | nil => simp [addNew]
  | cons name others ih =>
      by_cases hOld : name ∈ base
      · have hStep :
            addNew base (name :: others) =
              addNew base others := by
          simp [addNew, hOld]
        rw [hStep, ih, List.filter_cons_of_neg (by simpa)]
      · have hStep :
            addNew base (name :: others) =
              addNew (base ++ [name]) others := by
          simp [addNew, hOld]
        -- The name is part of the base for what comes behind.
        have hFilter :
            others.filter (· ∉ base ++ [name]) =
              (others.filter (· ∉ base)).filter
                fun other => !(other == name) := by
          rw [List.filter_filter]
          apply List.filter_congr
          intro other hMem
          by_cases hName : other = name <;> simp [hName]
        rw [hStep, ih, List.filter_cons_of_pos (by simpa),
          List.eraseDups_cons, hFilter, List.append_assoc]
        rfl

/- Added to nothing, names only lose their repeats. -/
theorem addNew_nil
    (added : List String) :
    addNew [] added = added.eraseDups := by
  rw [addNew_eq, List.nil_append,
    List.filter_eq_self.2 (by simp)]

end Overlay

end LineShell

------------------------------------------------------------
-- Counts that are chosen
------------------------------------------------------------

namespace LineShell

namespace Overlay

open Toml (Value Table)

/- Every integer in a section has sixty-four bits. -/
def Section.IsBounded
    (fields : Section) : Prop :=
  ∀ position key value,
    fields.value? position key = some value →
      value.IsBounded

/- The sections of a bounded table are bounded. -/
theorem Section.isBounded_of?
    {table : Table}
    (hTable : table.IsBounded)
    {key : String}
    {fields : Section}
    (hFields : of? key table = some fields) :
    fields.IsBounded := by
  have hNone : (keyed []).IsBounded := by
    intro position other value hValue
    cases hValue
  unfold of? at hFields
  split at hFields
  case h_1 =>
    cases hFields
    exact hNone
  case h_2 origin entries hLook =>
    cases hFields
    cases Toml.isBounded_of_lookUp hTable hLook with
    | table hEntries =>
        intro position other value hValue
        exact Toml.isBounded_of_lookUp hEntries hValue
  case h_3 items hLook =>
    cases hFields
    cases Toml.isBounded_of_lookUp hTable hLook with
    | array hItems =>
        intro position other value hValue
        exact hItems value (List.mem_of_getElem? hValue)
  case h_4 rows hLook =>
    cases hFields
    cases Toml.isBounded_of_lookUp hTable hLook with
    | tables hRows =>
        intro position other value hValue
        rcases List.mem_map.1 (List.mem_of_getElem? hValue)
          with ⟨row, hRow, rfl⟩
        exact .table (hRows row (List.mem_reverse.1 hRow))
  case h_5 =>
    cases hFields
    exact hNone
  case h_6 => cases hFields

/- A count that a bounded table chooses is in range. -/
theorem isInRange_of_ofTable?
    {table : Table}
    (hTable : table.IsBounded)
    {overlay : Overlay}
    (hOverlay : ofTable? table = some overlay)
    {count : Nat}
    (hCount : overlay.pageLines = some count) :
    Toml.isInRange count = true := by
  have hSuits := allSuit_of_ofTable? hOverlay
  rw [ofTable?_eq_ofValues hSuits] at hOverlay
  cases hOverlay
  rcases Option.bind_eq_some_iff.1 hCount with
    ⟨value, hValue, hRead⟩
  rcases Option.bind_eq_some_iff.1 hValue with
    ⟨fields, hFields, hFound⟩
  have hBounded :=
    Section.isBounded_of? hTable hFields _ _ _ hFound
  rw [count?_eq_some_iff.1 hRead] at hBounded
  cases hBounded with
  | integer hRange => exact hRange

end Overlay

end LineShell

namespace LineShell

namespace Settings

/- A count that is loaded can be written. -/
theorem isInRange_pageLines_load
    (bytes : Option ByteArray) :
    Toml.isInRange (load bytes).pageLines = true := by
  unfold load
  split
  case h_1 => decide
  case h_2 overlay hOverlay =>
    rcases Option.bind_eq_some_iff.1 hOverlay with
      ⟨content, hContent, hBytes⟩
    rcases Option.bind_eq_some_iff.1 hBytes with
      ⟨table, hRead, hTable⟩
    rcases Option.bind_eq_some_iff.1 hRead with
      ⟨text, hText, hDocument⟩
    have hBounded := Toml.isBounded_of_read? hDocument
    cases hLines : overlay.pageLines with
    | none =>
        simp only [Overlay.apply, hLines, Option.getD_none]
        decide
    | some count =>
        simp only [Overlay.apply, hLines, Option.getD_some]
        exact Overlay.isInRange_of_ofTable? hBounded hTable
          hLines

end Settings

end LineShell

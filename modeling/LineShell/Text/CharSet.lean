/-
  This module holds sets of characters that are given as
  tables: a set is the list of its runs of code points.

  Key definitions include:
    * `Text.CharSet`
    * `Text.CharSet.contains`

  The lemma `contains_iff` says that a character is in a set
  exactly when one of the runs holds its code point, and
  `contains_eq_false` that a set has nothing where it has no
  run.
-/

namespace LineShell

namespace Text

------------------------------------------------------------
-- Sets
------------------------------------------------------------

/-
  A set of characters. Each run is given by its first and
  its last code point.
-/
structure CharSet where
  runs : List (Nat × Nat)

namespace CharSet

/- A character is in one of the runs. -/
def contains
    (set : CharSet)
    (c : Char) : Bool :=
  set.runs.any fun (first, last) =>
    first ≤ c.toNat && c.toNat ≤ last

------------------------------------------------------------
-- Membership
------------------------------------------------------------

/- A set holds what lies between the ends of its runs. -/
theorem contains_iff
    {set : CharSet}
    {c : Char} :
    set.contains c = true ↔
      ∃ run ∈ set.runs,
        run.1 ≤ c.toNat ∧ c.toNat ≤ run.2 := by
  simp [contains]

/-
  A set without a run between two code points holds none of
  the characters from the one to the other.
-/
theorem contains_eq_false
    {set : CharSet}
    {low high : Nat}
    {c : Char}
    (apart : set.runs.all
      (fun run => run.2 < low || high < run.1) = true)
    (between : low ≤ c.toNat ∧ c.toNat ≤ high) :
    set.contains c = false := by
  rw [Bool.eq_false_iff]
  intro held
  obtain ⟨run, member, first, last⟩ := contains_iff.1 held
  have away := List.all_eq_true.1 apart run member
  simp only [Bool.or_eq_true, decide_eq_true_eq] at away
  omega

end CharSet

end Text

end LineShell

import LineShell.Proofs.Toml.Alike

/-
  Documents that are edited. Entries and sections of a
  document may change places, and so may the keys of a table
  in braces; and what nobody asks for may be added, removed
  or changed. About what is asked for the document says the
  same.

  Key definitions include:
    * `Toml.Facts.AgreesWith`
    * `Toml.EditedOutside`

  Correctness is proven by:
    * `Toml.factsOf_append`
    * `Toml.EditedOutside.agreesWith`
-/

------------------------------------------------------------
-- Facts that agree
------------------------------------------------------------

namespace LineShell

namespace Toml

namespace Facts

/- What facts say that is asked for, others say alike. -/
def IsCoveredBy
    (facts others asked : Facts) : Prop :=
  ∀ path content,
    asked path content →
      facts path content →
        ∃ found, others path found ∧ content.Alike found

/- About what is asked for two documents say the same. -/
structure AgreesWith
    (facts others asked : Facts) : Prop where
  covered : facts.IsCoveredBy others asked
  covering : others.IsCoveredBy facts asked

/- What is asked for does not depend on the order of keys. -/
def IsStable
    (asked : Facts) : Prop :=
  ∀ path content other,
    asked path content →
      content.Alike other → asked path other

/- Facts about which nobody asks. -/
def IsOutside
    (facts asked : Facts) : Prop :=
  ∀ path content, facts path content → ¬asked path content

variable
    {facts others thirds asked : Facts}

theorem isCoveredBy_refl :
    facts.IsCoveredBy facts asked :=
  fun _ content _ hFact => ⟨content, hFact, .refl content⟩

theorem IsCoveredBy.trans
    (hStable : asked.IsStable)
    (hOthers : facts.IsCoveredBy others asked)
    (hThirds : others.IsCoveredBy thirds asked) :
    facts.IsCoveredBy thirds asked := by
  intro path content hAsked hFact
  rcases hOthers path content hAsked hFact with
    ⟨other, hOther, hAlike⟩
  have hStill := hStable path content other hAsked hAlike
  rcases hThirds path other hStill hOther with
    ⟨third, hThird, hNext⟩
  exact ⟨third, hThird, hAlike.trans hNext⟩

/- Parts of facts may be replaced by parts that cover them. -/
theorem IsCoveredBy.join
    {more found : Facts}
    (hFacts : facts.IsCoveredBy others asked)
    (hMore : more.IsCoveredBy found asked) :
    (facts.join more).IsCoveredBy (others.join found)
      asked := by
  rintro path content hAsked (hFact | hFact)
  · rcases hFacts path content hAsked hFact with
      ⟨other, hOther, hAlike⟩
    exact ⟨other, .inl hOther, hAlike⟩
  · rcases hMore path content hAsked hFact with
      ⟨other, hOther, hAlike⟩
    exact ⟨other, .inr hOther, hAlike⟩

namespace AgreesWith

theorem refl :
    facts.AgreesWith facts asked :=
  ⟨isCoveredBy_refl, isCoveredBy_refl⟩

theorem symm
    (hAgrees : facts.AgreesWith others asked) :
    others.AgreesWith facts asked :=
  ⟨hAgrees.covering, hAgrees.covered⟩

theorem trans
    (hStable : asked.IsStable)
    (hOthers : facts.AgreesWith others asked)
    (hThirds : others.AgreesWith thirds asked) :
    facts.AgreesWith thirds asked :=
  ⟨hOthers.covered.trans hStable hThirds.covered,
    hThirds.covering.trans hStable hOthers.covering⟩

theorem join
    {more found : Facts}
    (hFacts : facts.AgreesWith others asked)
    (hMore : more.AgreesWith found asked) :
    (facts.join more).AgreesWith (others.join found) asked :=
  ⟨hFacts.covered.join hMore.covered,
    hFacts.covering.join hMore.covering⟩

/- To add what nobody asks about changes nothing. -/
theorem join_outside
    {more : Facts}
    (hOutside : more.IsOutside asked) :
    facts.AgreesWith (more.join facts) asked where
  covered := fun _ content _ hFact =>
    ⟨content, .inr hFact, .refl content⟩
  covering := by
    rintro path content hAsked (hMore | hFact)
    · exact absurd hAsked (hOutside path content hMore)
    · exact ⟨content, hFact, .refl content⟩

/- What two parts say they say in either order. -/
theorem join_left_comm :
    (facts.join (others.join thirds)).AgreesWith
      (others.join (facts.join thirds)) asked := by
  have hOrder :
      facts.join (others.join thirds) =
        others.join (facts.join thirds) := by
    funext path content
    exact propext or_left_comm
  rw [hOrder]
  exact .refl

end AgreesWith

end Facts

/- What is alike says alike things under any path. -/
theorem Value.Alike.agreesWith_under
    {value other : Value}
    (hAlike : value.Alike other)
    (place : List String)
    (asked : Facts) :
    (Facts.under value.Says place).AgreesWith
      (Facts.under other.Says place) asked := by
  constructor
  · rintro path content _ ⟨rest, rfl, hSays⟩
    rcases hAlike.says_alike hSays with
      ⟨found, hFound, hContent⟩
    exact ⟨found, ⟨rest, rfl, hFound⟩, hContent⟩
  · rintro path content _ ⟨rest, rfl, hSays⟩
    rcases hAlike.symm.says_alike hSays with
      ⟨found, hFound, hContent⟩
    exact ⟨found, ⟨rest, rfl, hFound⟩, hContent⟩

end Toml

end LineShell

------------------------------------------------------------
-- Statements that are edited
------------------------------------------------------------

namespace LineShell

namespace Toml

/- The path of the header below which statements end. -/
def headerAfter :
    List String → List Statement → List String
  | header, [] => header
  | _, .table key :: others => headerAfter key.parts others
  | _, .row key :: others => headerAfter key.parts others
  | header, .entry _ _ :: others => headerAfter header others

/- A statement after which the header before is forgotten. -/
def Statement.IsHeader :
    Statement → Prop
  | .table _ => True
  | .row _ => True
  | .entry _ _ => False

/- Statements that begin with a header, if at all. -/
def AreSections
    (statements : List Statement) : Prop :=
  ∀ statement ∈ statements.head?, statement.IsHeader

/- What a value says as an entry behind statements. -/
def factsBehind
    (before : List Statement)
    (key : Key)
    (value : Value) : Facts :=
  Facts.under value.Says (headerAfter [] before ++ key.parts)

/-
  Documents that come from one another by edits outside of
  what is asked for. Entries next to each other change
  places, and so do sections and the keys of a table in
  braces. A value is replaced by one that says the same of
  what is asked for. Entries and sections that say nothing
  of it are added or removed.
-/
inductive EditedOutside
    (asked : Facts) :
    List Statement → List Statement → Prop where
  | same
      (statements : List Statement) :
      EditedOutside asked statements statements
  | swapEntries
      (before after : List Statement)
      (key other : Key)
      (value found : Value) :
      EditedOutside asked
        (before ++
          .entry key value :: .entry other found :: after)
        (before ++
          .entry other found :: .entry key value :: after)
  | swapSections
      (before : List Statement)
      {first second after : List Statement}
      (hFirst : AreSections first)
      (hSecond : AreSections second)
      (hAfter : AreSections after) :
      EditedOutside asked
        (before ++ (first ++ (second ++ after)))
        (before ++ (second ++ (first ++ after)))
  | swapKeys
      (before after : List Statement)
      (key : Key)
      {pairs others : List (Key × Value)}
      (hPerm : pairs.Perm others)
      (hClosed : ∀ pair ∈ pairs, pair.2.IsClosed)
      {table other : Table}
      (hTable : insertAll pairs [] = some table)
      (hOther : insertAll others [] = some other) :
      EditedOutside asked
        (before ++ .entry key (.table .inline table) :: after)
        (before ++ .entry key (.table .inline other) :: after)
  | changeValue
      (before after : List Statement)
      (key : Key)
      {value other : Value}
      (hAgrees :
        (factsBehind before key value).AgreesWith
          (factsBehind before key other) asked) :
      EditedOutside asked
        (before ++ .entry key value :: after)
        (before ++ .entry key other :: after)
  | addEntry
      (before after : List Statement)
      (key : Key)
      (value : Value)
      (hOutside :
        (factsBehind before key value).IsOutside asked) :
      EditedOutside asked
        (before ++ after)
        (before ++ .entry key value :: after)
  | addSections
      (before : List Statement)
      {added after : List Statement}
      (hAdded : AreSections added)
      (hAfter : AreSections after)
      (hOutside : (factsOf [] added).IsOutside asked) :
      EditedOutside asked
        (before ++ after)
        (before ++ (added ++ after))
  | symm
      {statements others : List Statement}
      (hOthers : EditedOutside asked statements others) :
      EditedOutside asked others statements
  | trans
      {statements others thirds : List Statement}
      (hOthers : EditedOutside asked statements others)
      (hThirds : EditedOutside asked others thirds) :
      EditedOutside asked statements thirds

/- What statements say, and then what those behind them do. -/
theorem factsOf_append
    (header : List String)
    (statements others : List Statement) :
    factsOf header (statements ++ others) =
      (factsOf header statements).join
        (factsOf (headerAfter header statements) others) := by
  induction statements generalizing header with
  | nil =>
      rw [List.nil_append, factsOf, headerAfter,
        Facts.nothing_join]
  | cons statement rest ih =>
      cases statement with
      | table key =>
          rw [List.cons_append, factsOf, factsOf, headerAfter,
            ih, Facts.join_assoc]
      | row key =>
          rw [List.cons_append, factsOf, factsOf, headerAfter,
            ih, Facts.join_assoc]
      | entry key value =>
          rw [List.cons_append, factsOf, factsOf, headerAfter,
            ih, Facts.join_assoc]

/- Sections say the same wherever they stand. -/
theorem factsOf_sections
    {statements : List Statement}
    (hSections : AreSections statements)
    (header : List String) :
    factsOf header statements = factsOf [] statements := by
  cases statements with
  | nil => rfl
  | cons statement others =>
      have hHeader := hSections statement rfl
      cases statement with
      | table key => rfl
      | row key => rfl
      | entry key value => exact hHeader.elim

namespace EditedOutside

variable
    {asked : Facts}

/- What is asked for is said before and after edits. -/
theorem agreesWith
    (hStable : asked.IsStable)
    {statements others : List Statement}
    (hEdited : EditedOutside asked statements others) :
    (factsOf [] statements).AgreesWith (factsOf [] others)
      asked := by
  induction hEdited with
  | same => exact .refl
  | swapEntries before after key other value found =>
      simp only [factsOf_append, factsOf]
      exact .join .refl .join_left_comm
  | swapSections before hFirst hSecond hAfter =>
      simp only [factsOf_append, factsOf_sections hFirst,
        factsOf_sections hSecond, factsOf_sections hAfter]
      exact .join .refl .join_left_comm
  | swapKeys before after key hPerm hClosed hTable hOther =>
      have hAlike :=
        alike_of_perm hPerm hClosed hTable hOther
      simp only [factsOf_append, factsOf]
      exact .join .refl
        (.join (hAlike.agreesWith_under _ _) .refl)
  | changeValue before after key hAgrees =>
      simp only [factsOf_append, factsOf]
      exact .join .refl (.join hAgrees .refl)
  | addEntry before after key value hOutside =>
      simp only [factsOf_append, factsOf]
      exact .join .refl (.join_outside hOutside)
  | addSections before hAdded hAfter hOutside =>
      simp only [factsOf_append, factsOf_sections hAdded,
        factsOf_sections hAfter]
      exact .join .refl (.join_outside hOutside)
  | symm _ ih => exact ih.symm
  | trans _ _ ihFirst ihSecond =>
      exact ihFirst.trans hStable ihSecond

end EditedOutside

end Toml

end LineShell

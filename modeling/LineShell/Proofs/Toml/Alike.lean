import LineShell.Proofs.Toml.Facts

/-
  Values that are alike. They differ in the order in which
  tables hold their keys, and say alike things. The keys of
  a table in braces may come in any order: the tables are
  alike.

  Key definitions include:
    * `Toml.Value.Alike`
    * `Toml.Content.Alike`
    * `Toml.Reflects`

  Correctness is proven by:
    * `Toml.Value.Alike.says_alike`
    * `Toml.areAlike_of_reflects`
    * `Toml.alike_of_perm`
-/

------------------------------------------------------------
-- Values that are alike
------------------------------------------------------------

namespace LineShell

namespace Toml

/-
  Two values that differ in the order of the keys of their
  tables, and in how these came to be, at most.
-/
inductive Value.Alike : Value → Value → Prop where
  | same
      (value : Value) :
      Alike value value
  | array
      {items others : List Value}
      (hLength : items.length = others.length)
      (hItems :
        ∀ {position : Nat} {value other : Value},
          items[position]? = some value →
            others[position]? = some other →
              Alike value other) :
      Alike (.array items) (.array others)
  | table
      {origin source : Origin}
      {entries others : Table}
      (hKeys :
        ∀ key,
          lookUp key entries = none ↔
            lookUp key others = none)
      (hValues :
        ∀ {key : String} {value other : Value},
          lookUp key entries = some value →
            lookUp key others = some other →
              Alike value other) :
      Alike (.table origin entries) (.table source others)

namespace Value.Alike

theorem symm
    {value other : Value}
    (hAlike : value.Alike other) :
    other.Alike value := by
  induction hAlike with
  | same value => exact .same value
  | array hLength _ ih =>
      exact .array hLength.symm fun hOther hValue =>
        ih hValue hOther
  | table hKeys _ ih =>
      exact .table (fun key => (hKeys key).symm)
        fun hOther hValue => ih hValue hOther

theorem trans
    {value other third : Value}
    (hAlike : value.Alike other)
    (hThird : other.Alike third) :
    value.Alike third := by
  induction hAlike generalizing third with
  | same => exact hThird
  | @array items others hLength hItems ih =>
      cases hThird with
      | same => exact .array hLength hItems
      | array hThirdLength hThirdItems =>
          refine .array (hLength.trans hThirdLength) ?_
          intro position value third hValue hThird
          have hBound : position < others.length := by
            rw [← hLength]
            exact (List.getElem?_eq_some_iff.1 hValue).1
          have hOther := List.getElem?_eq_getElem hBound
          exact ih hValue hOther (hThirdItems hOther hThird)
  | @table origin source entries others hKeys hValues ih =>
      cases hThird with
      | same => exact .table hKeys hValues
      | table hThirdKeys hThirdValues =>
          refine .table
            (fun key => (hKeys key).trans (hThirdKeys key)) ?_
          intro key value third hValue hThird
          cases hOther : lookUp key others with
          | none =>
              rw [(hKeys key).2 hOther] at hValue
              cases hValue
          | some other =>
              exact ih hValue hOther
                (hThirdValues hOther hThird)

end Value.Alike

/- Two values that are alike, or two that are missing. -/
structure AreAlike
    (value? other? : Option Value) : Prop where
  none_iff : value? = none ↔ other? = none
  alike :
    ∀ {value other},
      value? = some value →
        other? = some other → value.Alike other

theorem AreAlike.symm
    {value? other? : Option Value}
    (hAlike : AreAlike value? other?) :
    AreAlike other? value? where
  none_iff := hAlike.none_iff.symm
  alike := fun hOther hValue =>
    (hAlike.alike hValue hOther).symm

theorem areAlike_some
    {value other : Value}
    (hAlike : value.Alike other) :
    AreAlike (some value) (some other) where
  none_iff := by simp
  alike := by
    intro _ _ hValue hOther
    cases hValue
    cases hOther
    exact hAlike

/- Only a list of alike items is alike to a list. -/
theorem exists_of_alike_array
    {value : Value}
    {others : List Value}
    (hAlike : value.Alike (.array others)) :
    ∃ items,
      value = .array items ∧
        ∀ position : Nat,
          AreAlike items[position]? others[position]? := by
  cases hAlike with
  | same =>
      refine ⟨others, rfl, fun position => ⟨Iff.rfl, ?_⟩⟩
      intro value other hValue hOther
      rw [hValue] at hOther
      cases hOther
      exact .same value
  | @array items _ hLength hItems =>
      refine ⟨items, rfl, fun position => ⟨?_, hItems⟩⟩
      rw [List.getElem?_eq_none_iff,
        List.getElem?_eq_none_iff, hLength]

/- Two contents of which the values are alike. -/
inductive Content.Alike : Content → Content → Prop where
  | table : Alike .table .table
  | row : Alike .row .row
  | value
      {value other : Value}
      (hValue : value.Alike other) :
      Alike (.value value) (.value other)

namespace Content.Alike

theorem refl
    (content : Content) :
    content.Alike content := by
  cases content with
  | table => exact .table
  | row => exact .row
  | value value => exact .value (.same value)

theorem symm
    {content other : Content}
    (hAlike : content.Alike other) :
    other.Alike content := by
  cases hAlike with
  | table => exact .table
  | row => exact .row
  | value hValue => exact .value hValue.symm

theorem trans
    {content other third : Content}
    (hAlike : content.Alike other)
    (hThird : other.Alike third) :
    content.Alike third := by
  cases hAlike with
  | table => exact hThird
  | row => exact hThird
  | value hValue =>
      cases hThird with
      | value hOther => exact .value (hValue.trans hOther)

end Content.Alike

/- Values that are alike say alike things. -/
theorem Value.Alike.says_alike
    {value other : Value}
    (hAlike : value.Alike other)
    {path : List String}
    {content : Content}
    (hSays : value.Says path content) :
    ∃ found, other.Says path found ∧ content.Alike found := by
  induction hSays generalizing other with
  | leaf hLeaf =>
      cases hAlike with
      | same => exact ⟨_, .leaf hLeaf, .refl _⟩
      | array hLength hItems =>
          exact ⟨_, .leaf (by simp),
            .value (.array hLength hItems)⟩
      | table => exact absurd rfl (hLeaf _ _)
  | table origin entries =>
      cases hAlike with
      | same => exact ⟨_, .table origin entries, .table⟩
      | table => exact ⟨_, .table _ _, .table⟩
  | @entry _ _ key _ _ content hLook hSays ih =>
      cases hAlike with
      | same => exact ⟨content, .entry hLook hSays, .refl _⟩
      | @table _ _ _ others hKeys hValues =>
          cases hOther : lookUp key others with
          | none =>
              rw [(hKeys key).2 hOther] at hLook
              cases hLook
          | some other =>
              rcases ih (hValues hLook hOther) with
                ⟨found, hFound, hContent⟩
              exact ⟨found, .entry hOther hFound, hContent⟩

end Toml

end LineShell

------------------------------------------------------------
-- Values of the same facts
------------------------------------------------------------

namespace LineShell

namespace Toml

/-
  The value of a key says all of some facts and nothing
  else, however deep they are.
-/
inductive Reflects :
    Facts → Option Value → Prop where
  | nothing
      {facts : Facts}
      (hNothing : ∀ path content, ¬facts path content) :
      Reflects facts none
  | leaf
      {facts : Facts}
      {value : Value}
      (hSays :
        ∀ path content,
          facts path content ↔
            path = [] ∧ content = .value value) :
      Reflects facts (some value)
  | table
      {facts : Facts}
      (origin : Origin)
      {entries : Table}
      (hHere : ∀ content, facts [] content → content = .table)
      (hSome : ∃ path content, facts path content)
      (hBelow :
        ∀ key,
          Reflects (facts.below key) (lookUp key entries)) :
      Reflects facts (some (.table origin entries))

/- A value that is no table says only what it is. -/
theorem says_iff_of_leaf
    {value : Value}
    (hLeaf :
      ∀ origin entries, value ≠ .table origin entries)
    {path : List String}
    {content : Content} :
    value.Says path content ↔
      path = [] ∧ content = .value value := by
  constructor
  · intro hSays
    cases hSays with
    | leaf => exact ⟨rfl, rfl⟩
    | table => exact absurd rfl (hLeaf _ _)
    | entry => exact absurd rfl (hLeaf _ _)
  · rintro ⟨rfl, rfl⟩
    exact .leaf hLeaf

/- What is said below a key is said by the value there. -/
theorem says_below
    {key : String}
    {origin : Origin}
    {entries : Table}
    {value : Value}
    (hLook : lookUp key entries = some value) :
    Facts.below (Value.Says (.table origin entries)) key =
      value.Says := by
  funext path content
  apply propext
  constructor
  · intro hSays
    cases hSays with
    | entry hFound hValue =>
        rw [hLook] at hFound
        cases hFound
        exact hValue
  · intro hValue
    exact .entry hLook hValue

theorem not_says_of_lookUp
    {key : String}
    {origin : Origin}
    {entries : Table}
    (hLook : lookUp key entries = none)
    {path : List String}
    {content : Content} :
    ¬Value.Says (.table origin entries) (key :: path)
      content := by
  intro hSays
  cases hSays with
  | entry hFound =>
      rw [hLook] at hFound
      cases hFound

/- What is under a key is smaller than the table. -/
theorem sizeOf_lt_of_lookUp
    {key : String}
    {entries : Table}
    {value : Value}
    (hLook : lookUp key entries = some value) :
    sizeOf value < sizeOf entries := by
  rcases Option.map_eq_some_iff.1 hLook with
    ⟨⟨name, found⟩, hFind, rfl⟩
  have hEntry :=
    List.sizeOf_lt_of_mem (List.mem_of_find?_eq_some hFind)
  rw [Prod.mk.sizeOf_spec] at hEntry
  dsimp only
  omega

/- Every value reflects what it says. -/
theorem reflects_value
    (value : Value) :
    Reflects value.Says (some value) := by
  induction hSize : sizeOf value
    using Nat.strongRecOn generalizing value with
  | ind size ih =>
      by_cases hTable :
          ∃ origin entries, value = .table origin entries
      · rcases hTable with ⟨origin, entries, rfl⟩
        refine .table origin ?_
          ⟨[], .table, .table origin entries⟩ ?_
        · intro content hSays
          cases hSays with
          | leaf hLeaf => exact absurd rfl (hLeaf _ _)
          | table => rfl
        · intro key
          cases hLook : lookUp key entries with
          | none =>
              exact .nothing fun _ _ =>
                not_says_of_lookUp hLook
          | some value =>
              rw [says_below hLook]
              have hLess := sizeOf_lt_of_lookUp hLook
              refine ih (sizeOf value) ?_ value rfl
              rw [← hSize, Value.table.sizeOf_spec]
              omega
      · have hLeaf :
            ∀ origin entries, value ≠ .table origin entries :=
          fun origin entries hEq =>
            hTable ⟨origin, entries, hEq⟩
        exact .leaf fun path content => says_iff_of_leaf hLeaf

/- What shows is reflected, if no row of tables is said. -/
theorem reflects_of_shows
    {facts : Facts}
    {value? : Option Value}
    (hShows : Shows facts value?)
    (hNoRow : ∀ path, ¬facts path .row) :
    Reflects facts value? := by
  induction hShows with
  | nothing hNothing => exact .nothing hNothing
  | @value facts value _ hSays =>
      have hFacts : facts = value.Says := by
        funext path content
        exact propext (hSays path content)
      rw [hFacts]
      exact reflects_value value
  | rows _ _ hRow => exact absurd hRow (hNoRow [])
  | table _ hHere hSome _ ih =>
      exact .table _ hHere hSome fun key =>
        ih key fun path => hNoRow (key :: path)

/- Values that reflect the same facts are alike. -/
theorem areAlike_of_reflects
    {facts : Facts}
    {value? other? : Option Value}
    (hValue : Reflects facts value?)
    (hOther : Reflects facts other?) :
    AreAlike value? other? := by
  induction hValue generalizing other? with
  | nothing hNothing =>
      cases hOther with
      | nothing => exact ⟨by simp, by simp⟩
      | leaf hSays =>
          exact absurd ((hSays [] _).2 ⟨rfl, rfl⟩)
            (hNothing _ _)
      | table _ _ hSome =>
          rcases hSome with ⟨path, content, hFact⟩
          exact absurd hFact (hNothing path content)
  | leaf hSays =>
      have hHere := (hSays [] _).2 ⟨rfl, rfl⟩
      cases hOther with
      | nothing hNothing => exact absurd hHere (hNothing _ _)
      | leaf hOtherSays =>
          cases ((hOtherSays _ _).1 hHere).2
          exact areAlike_some (.same _)
      | table _ hTable => cases hTable _ hHere
  | table _ hHere hSome _ ih =>
      cases hOther with
      | nothing hNothing =>
          rcases hSome with ⟨path, content, hFact⟩
          exact absurd hFact (hNothing path content)
      | leaf hSays =>
          cases hHere _ ((hSays [] _).2 ⟨rfl, rfl⟩)
      | table _ _ _ hBelow =>
          apply areAlike_some
          exact .table (fun key => (ih key (hBelow key)).none_iff)
            fun {key _ _} hFirst hSecond =>
              (ih key (hBelow key)).alike hFirst hSecond

end Toml

end LineShell

------------------------------------------------------------
-- Tables in braces
------------------------------------------------------------

namespace LineShell

namespace Toml

/- Keys with values, as statements of a document. -/
def entriesOf
    (pairs : List (Key × Value)) : List Statement :=
  pairs.map fun pair => .entry pair.1 pair.2

/- A table in braces is made as the table of a document is. -/
theorem assemble_entriesOf
    (pairs : List (Key × Value))
    (table : Table) :
    assemble [] (entriesOf pairs) table =
      insertAll pairs table := by
  induction pairs generalizing table with
  | nil => rfl
  | cons pair others ih =>
      rcases pair with ⟨key, value⟩
      have hStep :
          assemble [] (entriesOf ((key, value) :: others))
              table =
            (insertDotted value key.last true key.path
              table).bind
                (assemble [] (entriesOf others)) :=
        rfl
      rw [hStep, insertAll]
      congr 1
      funext next
      exact ih next

/- What is said by one of the entries is said by them all. -/
theorem factsOf_entriesOf
    (pairs : List (Key × Value))
    {path : List String}
    {content : Content} :
    factsOf [] (entriesOf pairs) path content ↔
      ∃ pair ∈ pairs,
        Facts.under pair.2.Says pair.1.parts path content := by
  induction pairs with
  | nil => simp [entriesOf, factsOf, Facts.nothing]
  | cons pair others ih =>
      have hStep :
          factsOf [] (entriesOf (pair :: others)) path
              content ↔
            Facts.under pair.2.Says pair.1.parts path
                content ∨
              factsOf [] (entriesOf others) path content :=
        Iff.rfl
      rw [hStep, ih]
      simp

/- No value says that there is a row of tables. -/
theorem not_says_row
    {value : Value}
    {path : List String} :
    ¬value.Says path .row := by
  intro hSays
  generalize hContent : Content.row = content at hSays
  induction hSays with
  | leaf => cases hContent
  | table => cases hContent
  | entry _ _ ih => exact ih hContent

/- A table in braces reflects what its entries say. -/
theorem reflects_insertAll
    {pairs : List (Key × Value)}
    (hClosed : ∀ pair ∈ pairs, pair.2.IsClosed)
    {table : Table}
    (hTable : insertAll pairs [] = some table)
    (key : String) :
    Reflects
      ((factsOf [] (entriesOf pairs)).below key)
      (lookUp key table) := by
  have hStatements :
      ∀ statement ∈ entriesOf pairs, statement.IsClosed := by
    intro statement hMem
    rcases List.mem_map.1 hMem with ⟨pair, hPair, rfl⟩
    exact hClosed pair hPair
  rw [← assemble_entriesOf] at hTable
  have hFits := fits_assemble hStatements fits_nil hTable
  rw [Facts.nothing_join] at hFits
  refine reflects_of_shows (hFits key) ?_
  intro path hRow
  rcases (factsOf_entriesOf pairs).1 hRow with
    ⟨pair, hPair, rest, hPath, hSays⟩
  exact not_says_row hSays

/- In braces the keys may come in any order. -/
theorem alike_of_perm
    {pairs others : List (Key × Value)}
    (hPerm : pairs.Perm others)
    (hClosed : ∀ pair ∈ pairs, pair.2.IsClosed)
    {table other : Table}
    (hTable : insertAll pairs [] = some table)
    (hOther : insertAll others [] = some other) :
    Value.Alike (.table .inline table)
      (.table .inline other) := by
  have hFacts :
      factsOf [] (entriesOf others) =
        factsOf [] (entriesOf pairs) := by
    funext path content
    apply propext
    rw [factsOf_entriesOf, factsOf_entriesOf]
    simp only [hPerm.mem_iff]
  have hKeys :
      ∀ key,
        AreAlike (lookUp key table) (lookUp key other) := by
    intro key
    have hSecond :=
      reflects_insertAll
        (fun pair hPair =>
          hClosed pair (hPerm.mem_iff.2 hPair))
        hOther key
    rw [hFacts] at hSecond
    exact areAlike_of_reflects
      (reflects_insertAll hClosed hTable key) hSecond
  exact .table (fun key => (hKeys key).none_iff)
    fun {key _ _} hValue hFound =>
      (hKeys key).alike hValue hFound

end Toml

end LineShell

import LineShell.Proofs.Toml.Bounds

/-
  What documents say. A statement says that there is a
  table, a row of tables or a value at a path, and a value
  in braces says what is inside of it. The table that is
  made of statements shows everything that they say and
  nothing else, except for what is inside of rows.

  Key definitions include:
    * `Toml.Content`
    * `Toml.Facts`
    * `Toml.Value.Says`
    * `Toml.factsOf`
    * `Toml.Shows`
    * `Toml.Table.Fits`
    * `Toml.Adds`

  Correctness is proven by:
    * `Toml.adds_insertDotted`
    * `Toml.adds_within`
    * `Toml.fits_assemble`
    * `Toml.isClosed_of_statements?`
    * `Toml.fits_of_statements?`
-/

------------------------------------------------------------
-- Facts
------------------------------------------------------------

namespace LineShell

namespace Toml

/- What may be said to be at a path. -/
inductive Content where
  | table
  | row
  | value (value : Value)

/- What is said to be at which paths. -/
abbrev Facts :=
  List String → Content → Prop

namespace Facts

def nothing : Facts :=
  fun _ _ => False

/- There is this content, and nothing is said below it. -/
def single
    (content : Content) : Facts :=
  fun path other => path = [] ∧ other = content

def join
    (facts more : Facts) : Facts :=
  fun path content =>
    facts path content ∨ more path content

/- What facts say below a key, with paths from there. -/
def below
    (facts : Facts)
    (key : String) : Facts :=
  fun path content => facts (key :: path) content

/- Facts with paths from above a place. -/
def under
    (facts : Facts)
    (place : List String) : Facts :=
  fun path content =>
    ∃ rest, path = place ++ rest ∧ facts rest content

variable
    (facts : Facts)
    (place : List String)

theorem join_nothing :
    facts.join nothing = facts := by
  funext path content
  simp [join, nothing]

theorem nothing_join :
    nothing.join facts = facts := by
  funext path content
  simp [join, nothing]

theorem join_assoc
    (more others : Facts) :
    (facts.join more).join others =
      facts.join (more.join others) := by
  funext path content
  simp [join, or_assoc]

theorem under_nil :
    facts.under [] = facts := by
  funext path content
  simp [under]

theorem under_append
    (inner : List String) :
    facts.under (place ++ inner) =
      (facts.under inner).under place := by
  funext path content
  apply propext
  constructor
  · rintro ⟨rest, rfl, hRest⟩
    exact ⟨inner ++ rest, List.append_assoc .., rest, rfl,
      hRest⟩
  · rintro ⟨_, rfl, rest, rfl, hRest⟩
    exact ⟨rest, (List.append_assoc ..).symm, hRest⟩

theorem below_under_cons
    (key : String) :
    (facts.under (key :: place)).below key =
      facts.under place := by
  funext path content
  simp [below, under]

/- What is said under a key is said below no other key. -/
theorem below_under_cons_of_ne
    {key other : String}
    (hOther : key ≠ other) :
    (facts.under (key :: place)).below other = nothing := by
  funext path content
  simp [below, under, nothing, hOther.symm]

/- Below a key a single content is not found. -/
theorem below_single
    (content : Content)
    (key : String) :
    (single content).below key = nothing := by
  funext path other
  simp [below, single, nothing]

theorem below_join_single
    (content : Content)
    (key : String) :
    (facts.join (single content)).below key =
      facts.below key := by
  change
    (facts.below key).join ((single content).below key) =
      facts.below key
  rw [below_single, join_nothing]

end Facts

/-
  What a value says: what it is, or, if it is a table, what
  its entries say at their keys.
-/
inductive Value.Says :
    Value → List String → Content → Prop where
  | leaf
      {value : Value}
      (hLeaf :
        ∀ origin entries, value ≠ .table origin entries) :
      Says value [] (.value value)
  | table
      (origin : Origin)
      (entries : Table) :
      Says (.table origin entries) [] .table
  | entry
      {origin : Origin}
      {entries : Table}
      {key : String}
      {value : Value}
      {path : List String}
      {content : Content}
      (hLook : lookUp key entries = some value)
      (hSays : Says value path content) :
      Says (.table origin entries) (key :: path) content

/- What statements say that stand below a header. -/
def factsOf :
    List String → List Statement → Facts
  | _, [] => .nothing
  | header, statement :: others =>
    match statement with
    | .table key =>
      ((Facts.single .table).under key.parts).join
        (factsOf key.parts others)
    | .row key =>
      ((Facts.single .row).under key.parts).join
        (factsOf key.parts others)
    | .entry key value =>
      (Facts.under value.Says (header ++ key.parts)).join
        (factsOf header others)

/- No value is silent. -/
theorem says_something
    (value : Value) :
    ∃ path content, value.Says path content := by
  cases value with
  | table origin entries =>
      exact ⟨[], .table, .table origin entries⟩
  | _ => exact ⟨[], _, .leaf (by simp)⟩

end Toml

end LineShell

------------------------------------------------------------
-- Tables that fit facts
------------------------------------------------------------

namespace LineShell

namespace Toml

/- A value into which no later statement can write. -/
def Value.IsClosed :
    Value → Prop
  | .table origin _ => origin = .inline
  | .tables _ => False
  | _ => True

/-
  How facts show in the value of a key, with paths from that
  key. Of a row of tables only that it is there shows.
-/
inductive Shows :
    Facts → Option Value → Prop where
  | nothing
      {facts : Facts}
      (hNothing : ∀ path content, ¬facts path content) :
      Shows facts none
  | value
      {facts : Facts}
      {value : Value}
      (hClosed : value.IsClosed)
      (hSays :
        ∀ path content,
          facts path content ↔ value.Says path content) :
      Shows facts (some value)
  | rows
      {facts : Facts}
      (last : Table)
      (before : List Table)
      (hRow : facts [] .row) :
      Shows facts (some (.tables (last :: before)))
  | table
      {facts : Facts}
      {origin : Origin}
      {entries : Table}
      (hOpen : origin ≠ .inline)
      (hHere : ∀ content, facts [] content → content = .table)
      (hSome : ∃ path content, facts path content)
      (hBelow :
        ∀ key,
          Shows (facts.below key) (lookUp key entries)) :
      Shows facts (some (.table origin entries))

/- Facts show in the keys of a table. -/
def Table.Fits
    (table : Table)
    (facts : Facts) : Prop :=
  ∀ key, Shows (facts.below key) (lookUp key table)

theorem fits_nil :
    Table.Fits [] .nothing := by
  intro key
  exact .nothing fun _ _ hFact => hFact

/-
  A table fits more facts when a value is stored under their
  key in which they show.
-/
theorem fits_store
    {table : Table}
    {facts more : Facts}
    (hTable : table.Fits facts)
    {key : String}
    {path : List String}
    {value : Value}
    (hValue :
      Shows ((facts.join (more.under (key :: path))).below key)
        (some value)) :
    (store key value table).Fits
      (facts.join (more.under (key :: path))) := by
  intro other
  rw [lookUp_store]
  split
  case isTrue hKey =>
    subst hKey
    exact hValue
  case isFalse hKey =>
    have hSame :
        (facts.join (more.under (key :: path))).below other =
          facts.below other := by
      change
        (facts.below other).join
            ((more.under (key :: path)).below other) =
          facts.below other
      rw [Facts.below_under_cons_of_ne more path hKey,
        Facts.join_nothing]
    rw [hSame]
    exact hTable other

end Toml

end LineShell

------------------------------------------------------------
-- Changes inside of tables
------------------------------------------------------------

namespace LineShell

namespace Toml

/-
  A change of tables that adds facts, at least one of them
  and each below some key.
-/
structure Adds
    (change : Table → Option Table)
    (more : Facts) : Prop where
  keyed : ∀ content, ¬more [] content
  nonempty : ∃ path content, more path content
  fits :
    ∀ {facts table result},
      Table.Fits table facts →
        change table = some result →
          Table.Fits result (facts.join more)

/- Facts under a path with a key in it are below a key. -/
theorem Adds.of_under
    {change : Table → Option Table}
    {more : Facts}
    {first : String}
    {path : List String}
    (hSome : ∃ path content, more path content)
    (hFits :
      ∀ {facts table result},
        Table.Fits table facts →
          change table = some result →
            Table.Fits result
              (facts.join (more.under (first :: path)))) :
    Adds change (more.under (first :: path)) where
  keyed := by
    rintro content ⟨rest, hPath, hMore⟩
    cases hPath
  nonempty := by
    rcases hSome with ⟨rest, content, hMore⟩
    exact ⟨_, content, rest, rfl, hMore⟩
  fits := hFits

variable
    {facts more : Facts}
    {table : Table}
    {first : String}
    {path : List String}

/- Below a key of which nothing is known there is only more. -/
theorem below_join_under_of_none
    (hTable : table.Fits facts)
    (hLook : lookUp first table = none) :
    (facts.join (more.under (first :: path))).below first =
      more.under path := by
  have hShows := hTable first
  rw [hLook] at hShows
  cases hShows with
  | nothing hNothing =>
      have hBelow : facts.below first = .nothing := by
        funext rest content
        exact propext ⟨hNothing rest content, False.elim⟩
      change
        (facts.below first).join
            ((more.under (first :: path)).below first) =
          more.under path
      rw [hBelow, Facts.nothing_join, Facts.below_under_cons]

theorem below_join_under :
    (facts.join (more.under (first :: path))).below first =
      (facts.below first).join (more.under path) := by
  rw [← Facts.below_under_cons more path first]
  rfl

/- The last table of a row may become any other one. -/
theorem fits_lastRow
    (hTable : table.Fits facts)
    {last : Table}
    {before : List Table}
    (hLook :
      lookUp first table = some (.tables (last :: before)))
    (inner : Table) :
    (store first (.tables (inner :: before)) table).Fits
      (facts.join (more.under (first :: path))) := by
  apply fits_store hTable
  have hShows := hTable first
  rw [hLook] at hShows
  rw [below_join_under]
  cases hShows with
  | value hClosed => exact hClosed.elim
  | rows _ _ hRow => exact .rows inner before (.inl hRow)

variable
    {change : Table → Option Table}
    (hChange : Adds change (more.under path))
    (hTable : table.Fits facts)
    {origin : Origin}
    (hOpen : origin ≠ .inline)
    {inner : Table}

include hChange hTable hOpen

/- A change of nothing makes a table that is new. -/
theorem fits_new
    (hLook : lookUp first table = none)
    (hInner : change [] = some inner) :
    (store first (.table origin inner) table).Fits
      (facts.join (more.under (first :: path))) := by
  apply fits_store hTable
  rw [below_join_under_of_none hTable hLook]
  refine .table hOpen ?_ hChange.nonempty ?_
  · intro content hContent
    exact absurd hContent (hChange.keyed content)
  · have hFits := hChange.fits fits_nil hInner
    rw [Facts.nothing_join] at hFits
    exact hFits

/- A table that is there and open may be changed inside. -/
theorem fits_entered
    {entries : Table}
    (hLook :
      lookUp first table = some (.table origin entries))
    (hInner : change entries = some inner) :
    (store first (.table origin inner) table).Fits
      (facts.join (more.under (first :: path))) := by
  apply fits_store hTable
  have hShows := hTable first
  rw [hLook] at hShows
  rw [below_join_under]
  cases hShows with
  | value hClosed => exact absurd hClosed hOpen
  | table _ hHere hSome hBelow =>
      refine .table hOpen ?_ ?_ ?_
      · rintro content (hOld | hNew)
        · exact hHere content hOld
        · exact absurd hNew (hChange.keyed content)
      · rcases hSome with ⟨rest, content, hOld⟩
        exact ⟨rest, content, .inl hOld⟩
      · exact hChange.fits hBelow hInner

end Toml

end LineShell

------------------------------------------------------------
-- What changes add
------------------------------------------------------------

namespace LineShell

namespace Toml

/- A value that is put somewhere says what it says there. -/
theorem adds_insertDotted
    {value : Value}
    (hClosed : value.IsClosed)
    (key : String)
    (isOpen : Bool)
    (path : List String) :
    Adds (insertDotted value key isOpen path)
      (Facts.under value.Says (path ++ [key])) := by
  induction path generalizing isOpen with
  | nil =>
      apply Adds.of_under (says_something value)
      intro facts table result hTable hInsert
      unfold insertDotted at hInsert
      split at hInsert
      case isTrue hFree =>
        cases hInsert
        apply fits_store hTable
        rw [below_join_under_of_none hTable
            (Option.isNone_iff_eq_none.1 hFree.2),
          Facts.under_nil]
        exact .value hClosed fun _ _ => Iff.rfl
      case isFalse => cases hInsert
  | cons first path ih =>
      rw [List.cons_append]
      apply Adds.of_under (says_something value)
      intro facts table result hTable hInsert
      unfold insertDotted at hInsert
      split at hInsert
      case h_1 hLook =>
        rcases Option.map_eq_some_iff.1 hInsert with
          ⟨inner, hInner, rfl⟩
        exact fits_new (ih true) hTable (by decide) hLook
          hInner
      case h_2 entries hLook =>
        rcases Option.map_eq_some_iff.1 hInsert with
          ⟨inner, hInner, rfl⟩
        exact fits_entered (ih true) hTable (by decide) hLook
          hInner
      case h_3 entries hLook =>
        rcases Option.map_eq_some_iff.1 hInsert with
          ⟨inner, hInner, rfl⟩
        exact fits_entered (ih false) hTable (by decide) hLook
          hInner
      case h_4 last before hLook =>
        rcases Option.map_eq_some_iff.1 hInsert with
          ⟨inner, hInner, rfl⟩
        exact fits_lastRow hTable hLook inner
      case h_5 => cases hInsert

/- A change that adds facts adds them wherever it is made. -/
theorem adds_within
    {change : Table → Option Table}
    {more : Facts}
    (hChange : Adds change more)
    (path : List String) :
    Adds (within change path) (more.under path) := by
  induction path with
  | nil =>
      rw [Facts.under_nil]
      exact hChange
  | cons first path ih =>
      apply Adds.of_under hChange.nonempty
      intro facts table result hTable hWithin
      unfold within at hWithin
      split at hWithin
      case h_1 hLook =>
        rcases Option.map_eq_some_iff.1 hWithin with
          ⟨inner, hInner, rfl⟩
        exact fits_new ih hTable (by decide) hLook hInner
      case h_2 => cases hWithin
      case h_3 origin entries hOrigin hLook =>
        rcases Option.map_eq_some_iff.1 hWithin with
          ⟨inner, hInner, rfl⟩
        have hOpen : origin ≠ .inline := by
          rintro rfl
          exact hOrigin rfl
        exact fits_entered ih hTable hOpen hLook hInner
      case h_4 last before hLook =>
        rcases Option.map_eq_some_iff.1 hWithin with
          ⟨inner, hInner, rfl⟩
        exact fits_lastRow hTable hLook inner
      case h_5 => cases hWithin

theorem adds_openTable
    (key : String) :
    Adds (openTable key)
      ((Facts.single .table).under [key]) := by
  apply Adds.of_under ⟨[], .table, rfl, rfl⟩
  intro facts table result hTable hOpen
  unfold openTable at hOpen
  split at hOpen
  case h_1 hLook =>
    cases hOpen
    apply fits_store hTable
    rw [below_join_under_of_none hTable hLook,
      Facts.under_nil]
    refine .table (by decide) ?_ ⟨[], .table, rfl, rfl⟩ ?_
    · rintro content ⟨hPath, hContent⟩
      exact hContent
    · intro other
      rw [Facts.below_single]
      exact fits_nil other
  case h_2 entries hLook =>
    cases hOpen
    apply fits_store hTable
    have hShows := hTable key
    rw [hLook] at hShows
    rw [below_join_under, Facts.under_nil]
    cases hShows with
    | value hClosed => cases hClosed
    | table _ hHere hSome hBelow =>
        refine .table (by decide) ?_ ⟨[], .table, ?_⟩ ?_
        · rintro content (hOld | ⟨hPath, hContent⟩)
          · exact hHere content hOld
          · exact hContent
        · exact .inr ⟨rfl, rfl⟩
        · intro other
          rw [Facts.below_join_single]
          exact hBelow other
  case h_3 => cases hOpen

theorem adds_openRow
    (key : String) :
    Adds (openRow key)
      ((Facts.single .row).under [key]) := by
  apply Adds.of_under ⟨[], .row, rfl, rfl⟩
  intro facts table result hTable hOpen
  have hHere :
      (facts.join
        ((Facts.single .row).under [key])).below key
          [] .row :=
    .inr ⟨[], rfl, rfl, rfl⟩
  unfold openRow at hOpen
  split at hOpen
  case h_1 hLook =>
    cases hOpen
    apply fits_store hTable
    exact .rows [] [] hHere
  case h_2 rows hLook =>
    cases hOpen
    apply fits_store hTable
    exact .rows [] rows hHere
  case h_3 => cases hOpen

/- The values of a statement are closed. -/
def Statement.IsClosed :
    Statement → Prop
  | .table _ => True
  | .row _ => True
  | .entry _ value => value.IsClosed

/-
  The table of statements fits what was said before and what
  they say.
-/
theorem fits_assemble
    {statements : List Statement}
    (hClosed :
      ∀ statement ∈ statements, statement.IsClosed)
    {header : List String}
    {facts : Facts}
    {table result : Table}
    (hTable : table.Fits facts)
    (hResult :
      assemble header statements table = some result) :
    result.Fits (facts.join (factsOf header statements)) := by
  induction statements generalizing header facts table with
  | nil =>
      cases hResult
      rw [factsOf, Facts.join_nothing]
      exact hTable
  | cons statement others ih =>
      rcases List.forall_mem_cons.1 hClosed with
        ⟨hFirst, hOthers⟩
      cases statement with
      | table key =>
          rcases Option.bind_eq_some_iff.1 hResult with
            ⟨next, hNext, hRest⟩
          have hAdds :=
            adds_within (adds_openTable key.last) key.path
          rw [← Facts.under_append] at hAdds
          rw [factsOf, ← Facts.join_assoc]
          exact ih hOthers (hAdds.fits hTable hNext) hRest
      | row key =>
          rcases Option.bind_eq_some_iff.1 hResult with
            ⟨next, hNext, hRest⟩
          have hAdds :=
            adds_within (adds_openRow key.last) key.path
          rw [← Facts.under_append] at hAdds
          rw [factsOf, ← Facts.join_assoc]
          exact ih hOthers (hAdds.fits hTable hNext) hRest
      | entry key value =>
          rcases Option.bind_eq_some_iff.1 hResult with
            ⟨next, hNext, hRest⟩
          have hAdds :=
            adds_within
              (adds_insertDotted hFirst key.last true key.path)
              header
          rw [← Facts.under_append] at hAdds
          rw [factsOf, ← Facts.join_assoc]
          exact ih hOthers (hAdds.fits hTable hNext) hRest

end Toml

end LineShell

------------------------------------------------------------
-- Documents
------------------------------------------------------------

namespace LineShell

namespace Toml

theorem Value.IsScalar.isClosed
    {value : Value}
    (hScalar : value.IsScalar) :
    value.IsClosed := by
  cases hScalar <;> trivial

/- What is written as a value is closed. -/
theorem isClosed_readValueIn
    {steps depth : Nat}
    {chars rest : List Char}
    {value : Value}
    (hRead :
      readValueIn steps depth chars = some (value, rest)) :
    value.IsClosed := by
  unfold readValueIn at hRead
  split at hRead
  case h_1 => cases hRead
  case h_2 =>
    split at hRead
    case h_1 =>
      rcases Option.map_eq_some_iff.1 hRead with
        ⟨⟨items, after⟩, hItems, hEq⟩
      cases hEq
      trivial
    case h_2 =>
      rcases Option.bind_eq_some_iff.1 hRead with
        ⟨⟨pairs, after⟩, hPairs, hRest⟩
      rcases Option.bind_eq_some_iff.1 hRest with
        ⟨table, hTable, hEq⟩
      cases hEq
      rfl
    case h_3 => cases hRead
    case h_4 => cases hRead
    case h_5 => exact (isScalar_readScalar hRead).isClosed

variable
    {chars : List Char}
    {statements : List Statement}
    (hRead : statements? chars = some statements)

include hRead

theorem isClosed_of_statements? :
    ∀ statement ∈ statements, statement.IsClosed := by
  intro statement hMem
  rcases exists_readStatement_of_mem hRead hMem with
    ⟨start, stop, hStatement⟩
  cases statement with
  | table => trivial
  | row => trivial
  | entry key value =>
      rcases exists_readValue_of_entry hStatement with
        ⟨_, _, hValue⟩
      exact isClosed_readValueIn hValue

/- The table of a document fits what its statements say. -/
theorem fits_of_statements?
    {table : Table}
    (hTable : assemble [] statements [] = some table) :
    table.Fits (factsOf [] statements) := by
  have hFits :=
    fits_assemble (isClosed_of_statements? hRead) fits_nil
      hTable
  rw [Facts.nothing_join] at hFits
  exact hFits

end Toml

end LineShell

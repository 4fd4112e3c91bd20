import LineShell.Toml.Document

/-
  Integers of documents. Every integer that is read has
  sixty-four bits, and no operation on tables makes another
  one: a document holds nothing but such integers.

  Key definitions include:
    * `Toml.Value.IsBounded`
    * `Toml.Table.IsBounded`
    * `Toml.Statement.IsBounded`
    * `Toml.Value.IsScalar`

  Correctness is proven by:
    * `Toml.readsBounded`
    * `Toml.exists_readStatement_of_mem`
    * `Toml.isBounded_assemble`
    * `Toml.isBounded_of_read?`
-/

------------------------------------------------------------
-- Bounded values
------------------------------------------------------------

namespace LineShell

namespace Toml

/- Every integer in a value has sixty-four bits. -/
inductive Value.IsBounded : Value → Prop where
  | string
      (text : String) :
      IsBounded (.string text)
  | integer
      {value : Int}
      (hRange : isInRange value = true) :
      IsBounded (.integer value)
  | fraction : IsBounded .fraction
  | boolean
      (value : Bool) :
      IsBounded (.boolean value)
  | dateTime : IsBounded .dateTime
  | array
      {items : List Value}
      (hItems : ∀ item ∈ items, IsBounded item) :
      IsBounded (.array items)
  | table
      {origin : Origin}
      {entries : List (String × Value)}
      (hEntries : ∀ entry ∈ entries, IsBounded entry.2) :
      IsBounded (.table origin entries)
  | tables
      {rows : List (List (String × Value))}
      (hRows :
        ∀ row ∈ rows,
          ∀ entry ∈ row, IsBounded entry.2) :
      IsBounded (.tables rows)

/- Every integer in a table has sixty-four bits. -/
def Table.IsBounded
    (table : Table) : Prop :=
  ∀ entry ∈ table, entry.2.IsBounded

/- Every integer in a statement has sixty-four bits. -/
def Statement.IsBounded :
    Statement → Prop
  | .table _ => True
  | .row _ => True
  | .entry _ value => value.IsBounded

theorem Table.isBounded_nil :
    IsBounded [] := by
  intro entry hMem
  cases hMem

end Toml

end LineShell

------------------------------------------------------------
-- Bounded tables
------------------------------------------------------------

namespace LineShell

namespace Toml

variable
    {table : Table}
    (hTable : table.IsBounded)
    {key : String}

include hTable

theorem isBounded_of_lookUp
    {value : Value}
    (hLook : lookUp key table = some value) :
    value.IsBounded := by
  rcases Option.map_eq_some_iff.1 hLook with
    ⟨entry, hFind, rfl⟩
  exact hTable entry (List.mem_of_find?_eq_some hFind)

theorem isBounded_store
    {value : Value}
    (hValue : value.IsBounded) :
    (store key value table).IsBounded := by
  intro entry hMem
  rcases List.mem_append.1 hMem with hOld | hNew
  · exact hTable entry (List.mem_filter.1 hOld).1
  · rw [List.mem_singleton.1 hNew]
    exact hValue

/-
  A table stays bounded when a bounded table takes the place
  of one of its own.
-/
theorem isBounded_storeTable
    {inner : Table}
    (hInner : inner.IsBounded)
    (origin : Origin) :
    (store key (.table origin inner) table).IsBounded :=
  isBounded_store hTable (.table hInner)

theorem isBounded_storeRow
    {last inner : Table}
    {before : List Table}
    (hLook :
      lookUp key table = some (.tables (last :: before)))
    (hInner : inner.IsBounded) :
    (store key (.tables (inner :: before))
      table).IsBounded := by
  apply isBounded_store hTable
  cases isBounded_of_lookUp hTable hLook with
  | tables hRows =>
      apply Value.IsBounded.tables
      intro row hMem
      rcases List.mem_cons.1 hMem with rfl | hBefore
      · exact hInner
      · exact hRows row (List.mem_cons_of_mem _ hBefore)

end Toml

end LineShell

------------------------------------------------------------
-- Changes of tables
------------------------------------------------------------

namespace LineShell

namespace Toml

/- A bounded value may go anywhere into a bounded table. -/
theorem isBounded_insertDotted
    {value : Value}
    (hValue : value.IsBounded)
    {key : String}
    {path : List String}
    {isOpen : Bool}
    {table result : Table}
    (hTable : table.IsBounded)
    (hInsert :
      insertDotted value key isOpen path table =
        some result) :
    result.IsBounded := by
  induction path generalizing isOpen table result with
  | nil =>
      unfold insertDotted at hInsert
      split at hInsert
      · cases hInsert
        exact isBounded_store hTable hValue
      · cases hInsert
  | cons first path ih =>
      unfold insertDotted at hInsert
      split at hInsert
      case h_1 hLook =>
        rcases Option.map_eq_some_iff.1 hInsert with
          ⟨inner, hInner, rfl⟩
        exact isBounded_storeTable hTable
          (ih Table.isBounded_nil hInner) .dotted
      case h_2 entries hLook =>
        rcases Option.map_eq_some_iff.1 hInsert with
          ⟨inner, hInner, rfl⟩
        cases isBounded_of_lookUp hTable hLook with
        | table hEntries =>
            exact isBounded_storeTable hTable
              (ih hEntries hInner) .dotted
      case h_3 entries hLook =>
        rcases Option.map_eq_some_iff.1 hInsert with
          ⟨inner, hInner, rfl⟩
        cases isBounded_of_lookUp hTable hLook with
        | table hEntries =>
            exact isBounded_storeTable hTable
              (ih hEntries hInner) .implied
      case h_4 last before hLook =>
        rcases Option.map_eq_some_iff.1 hInsert with
          ⟨inner, hInner, rfl⟩
        cases isBounded_of_lookUp hTable hLook with
        | tables hRows =>
            exact isBounded_storeRow hTable hLook
              (ih (hRows last (List.mem_cons_self ..)) hInner)
      case h_5 => cases hInsert

/- Bounded values make a bounded table. -/
theorem isBounded_insertAll
    {pairs : List (Key × Value)}
    (hPairs : ∀ pair ∈ pairs, pair.2.IsBounded)
    {table result : Table}
    (hTable : table.IsBounded)
    (hInsert : insertAll pairs table = some result) :
    result.IsBounded := by
  induction pairs generalizing table with
  | nil =>
      cases hInsert
      exact hTable
  | cons pair others ih =>
      rcases Option.bind_eq_some_iff.1 hInsert with
        ⟨next, hNext, hRest⟩
      rcases List.forall_mem_cons.1 hPairs with
        ⟨hFirst, hOthers⟩
      exact ih hOthers
        (isBounded_insertDotted hFirst hTable hNext) hRest

/-
  A change that keeps tables bounded does so wherever it is
  made.
-/
theorem isBounded_within
    {change : Table → Option Table}
    (hChange :
      ∀ table result,
        table.IsBounded →
          change table = some result → result.IsBounded)
    {path : List String}
    {table result : Table}
    (hTable : table.IsBounded)
    (hWithin : within change path table = some result) :
    result.IsBounded := by
  induction path generalizing table result with
  | nil => exact hChange table result hTable hWithin
  | cons first path ih =>
      unfold within at hWithin
      split at hWithin
      case h_1 hLook =>
        rcases Option.map_eq_some_iff.1 hWithin with
          ⟨inner, hInner, rfl⟩
        exact isBounded_storeTable hTable
          (ih Table.isBounded_nil hInner) .implied
      case h_2 => cases hWithin
      case h_3 origin entries hOrigin hLook =>
        rcases Option.map_eq_some_iff.1 hWithin with
          ⟨inner, hInner, rfl⟩
        cases isBounded_of_lookUp hTable hLook with
        | table hEntries =>
            exact isBounded_storeTable hTable
              (ih hEntries hInner) origin
      case h_4 last before hLook =>
        rcases Option.map_eq_some_iff.1 hWithin with
          ⟨inner, hInner, rfl⟩
        cases isBounded_of_lookUp hTable hLook with
        | tables hRows =>
            exact isBounded_storeRow hTable hLook
              (ih (hRows last (List.mem_cons_self ..)) hInner)
      case h_5 => cases hWithin

theorem isBounded_openTable
    {key : String}
    {table result : Table}
    (hTable : table.IsBounded)
    (hOpen : openTable key table = some result) :
    result.IsBounded := by
  unfold openTable at hOpen
  split at hOpen
  case h_1 hLook =>
    cases hOpen
    exact isBounded_storeTable hTable Table.isBounded_nil
      .header
  case h_2 entries hLook =>
    cases hOpen
    cases isBounded_of_lookUp hTable hLook with
    | table hEntries =>
        exact isBounded_storeTable hTable hEntries .header
  case h_3 => cases hOpen

theorem isBounded_openRow
    {key : String}
    {table result : Table}
    (hTable : table.IsBounded)
    (hOpen : openRow key table = some result) :
    result.IsBounded := by
  unfold openRow at hOpen
  split at hOpen
  case h_1 hLook =>
    cases hOpen
    apply isBounded_store hTable
    apply Value.IsBounded.tables
    intro row hMem
    rw [List.mem_singleton.1 hMem]
    exact Table.isBounded_nil
  case h_2 rows hLook =>
    cases hOpen
    apply isBounded_store hTable
    cases isBounded_of_lookUp hTable hLook with
    | tables hRows =>
        apply Value.IsBounded.tables
        intro row hMem
        rcases List.mem_cons.1 hMem with rfl | hBefore
        · exact Table.isBounded_nil
        · exact hRows row hBefore
  case h_3 => cases hOpen

/- Bounded statements make a bounded table. -/
theorem isBounded_assemble
    {statements : List Statement}
    (hStatements :
      ∀ statement ∈ statements, statement.IsBounded)
    {header : List String}
    {table result : Table}
    (hTable : table.IsBounded)
    (hResult :
      assemble header statements table = some result) :
    result.IsBounded := by
  induction statements generalizing header table with
  | nil =>
      cases hResult
      exact hTable
  | cons statement others ih =>
      rcases List.forall_mem_cons.1 hStatements with
        ⟨hFirst, hOthers⟩
      cases statement with
      | table key =>
          rcases Option.bind_eq_some_iff.1 hResult with
            ⟨next, hNext, hRest⟩
          have hBounded :=
            isBounded_within
              (fun _ _ hInner hOpen =>
                isBounded_openTable hInner hOpen)
              hTable hNext
          exact ih hOthers hBounded hRest
      | row key =>
          rcases Option.bind_eq_some_iff.1 hResult with
            ⟨next, hNext, hRest⟩
          have hBounded :=
            isBounded_within
              (fun _ _ hInner hOpen =>
                isBounded_openRow hInner hOpen)
              hTable hNext
          exact ih hOthers hBounded hRest
      | entry key value =>
          rcases Option.bind_eq_some_iff.1 hResult with
            ⟨next, hNext, hRest⟩
          have hBounded :=
            isBounded_within
              (fun _ _ hInner hInsert =>
                isBounded_insertDotted hFirst hInner hInsert)
              hTable hNext
          exact ih hOthers hBounded hRest

end Toml

end LineShell

------------------------------------------------------------
-- Readers of values
------------------------------------------------------------

namespace LineShell

namespace Toml

/- What passes the check is in range. -/
theorem isInRange_of_check
    {read value : Int}
    {after rest : List Char}
    (hCheck :
      (if isInRange read = true then
          some (read, after)
        else
          none) =
        some (value, rest)) :
    isInRange value = true := by
  split at hCheck
  case isTrue hRange =>
    cases hCheck
    exact hRange
  case isFalse => cases hCheck

theorem isInRange_of_readInBase
    {base : Nat}
    {chars rest : List Char}
    {value : Int}
    (hRead : readInBase base chars = some (value, rest)) :
    isInRange value = true := by
  unfold readInBase at hRead
  rcases Option.bind_eq_some_iff.1 hRead with
    ⟨⟨digits, after⟩, hDigits, hCheck⟩
  exact isInRange_of_check hCheck

/- An integer that is read has sixty-four bits. -/
theorem isInRange_of_readInteger
    {chars rest : List Char}
    {value : Int}
    (hRead : readInteger chars = some (value, rest)) :
    isInRange value = true := by
  unfold readInteger at hRead
  split at hRead
  case h_1 => exact isInRange_of_readInBase hRead
  case h_2 => exact isInRange_of_readInBase hRead
  case h_3 => exact isInRange_of_readInBase hRead
  case h_4 =>
    rcases hSign : readSign chars with ⟨negative, start⟩
    rw [hSign] at hRead
    rcases Option.bind_eq_some_iff.1 hRead with
      ⟨⟨digits, after⟩, hDigits, hCheck⟩
    exact isInRange_of_check hCheck

/- A value that is no list and no table, as it is read. -/
inductive Value.IsScalar : Value → Prop where
  | string
      (text : String) :
      IsScalar (.string text)
  | integer
      {value : Int}
      (hRange : isInRange value = true) :
      IsScalar (.integer value)
  | fraction : IsScalar .fraction
  | boolean
      (value : Bool) :
      IsScalar (.boolean value)
  | dateTime : IsScalar .dateTime

theorem isScalar_readScalar
    {chars rest : List Char}
    {value : Value}
    (hRead : readScalar chars = some (value, rest)) :
    value.IsScalar := by
  have hText :
      readScalar.readText chars = some (value, rest) →
        value.IsScalar := by
    intro hRead
    rcases Option.map_eq_some_iff.1 hRead with
      ⟨⟨text, after⟩, hString, hEq⟩
    cases hEq
    exact .string _
  unfold readScalar at hRead
  split at hRead
  case h_1 => exact hText hRead
  case h_2 => exact hText hRead
  case h_3 =>
    cases hRead
    exact .boolean true
  case h_4 =>
    cases hRead
    exact .boolean false
  case h_5 =>
    split at hRead
    · cases hRead
      exact .dateTime
    · cases hRead
      exact .fraction
    · rcases Option.map_eq_some_iff.1 hRead with
        ⟨⟨integer, after⟩, hInteger, hEq⟩
      cases hEq
      exact .integer (isInRange_of_readInteger hInteger)

theorem Value.IsScalar.isBounded
    {value : Value}
    (hScalar : value.IsScalar) :
    value.IsBounded := by
  cases hScalar with
  | string text => exact .string text
  | integer hRange => exact .integer hRange
  | fraction => exact .fraction
  | boolean flag => exact .boolean flag
  | dateTime => exact .dateTime

/-
  With a number of steps the readers of values, lists and
  tables yield bounded values only.
-/
structure ReadsBounded
    (steps : Nat) : Prop where
  value :
    ∀ {depth chars value rest},
      readValueIn steps depth chars = some (value, rest) →
        value.IsBounded
  items :
    ∀ {depth chars items rest},
      readItems steps depth chars = some (items, rest) →
        ∀ item ∈ items, item.IsBounded
  pairs :
    ∀ {depth chars pairs rest},
      readPairs steps depth chars = some (pairs, rest) →
        ∀ pair ∈ pairs, pair.2.IsBounded
  morePairs :
    ∀ {depth chars pairs rest},
      readMorePairs steps depth chars = some (pairs, rest) →
        ∀ pair ∈ pairs, pair.2.IsBounded

variable
    {steps : Nat}
    (hSteps : ReadsBounded steps)
    {depth : Nat}
    {chars rest : List Char}

include hSteps

theorem isBounded_readValueIn_succ
    {value : Value}
    (hRead :
      readValueIn (steps + 1) depth chars =
        some (value, rest)) :
    value.IsBounded := by
  unfold readValueIn at hRead
  split at hRead
  case h_1 =>
    rcases Option.map_eq_some_iff.1 hRead with
      ⟨⟨items, after⟩, hItems, hEq⟩
    cases hEq
    exact .array (hSteps.items hItems)
  case h_2 =>
    rcases Option.bind_eq_some_iff.1 hRead with
      ⟨⟨pairs, after⟩, hPairs, hRest⟩
    rcases Option.bind_eq_some_iff.1 hRest with
      ⟨table, hTable, hEq⟩
    cases hEq
    exact .table
      (isBounded_insertAll (hSteps.pairs hPairs)
        Table.isBounded_nil hTable)
  case h_3 => cases hRead
  case h_4 => cases hRead
  case h_5 => exact (isScalar_readScalar hRead).isBounded

theorem isBounded_readItems_succ
    {items : List Value}
    (hRead :
      readItems (steps + 1) depth chars =
        some (items, rest)) :
    ∀ item ∈ items, item.IsBounded := by
  unfold readItems at hRead
  rcases Option.bind_eq_some_iff.1 hRead with
    ⟨start, hStart, hNext⟩
  split at hNext
  case h_1 =>
    cases hNext
    simp
  case h_2 =>
    rcases Option.bind_eq_some_iff.1 hNext with
      ⟨⟨first, after⟩, hFirst, hMore⟩
    rcases Option.bind_eq_some_iff.1 hMore with
      ⟨stop, hStop, hLast⟩
    have hBounded := hSteps.value hFirst
    split at hLast
    case h_1 =>
      cases hLast
      simpa using hBounded
    case h_2 =>
      rcases Option.bind_eq_some_iff.1 hLast with
        ⟨⟨others, final⟩, hOthers, hEq⟩
      cases hEq
      intro item hMem
      rcases List.mem_cons.1 hMem with rfl | hMem
      · exact hBounded
      · exact hSteps.items hOthers item hMem
    case h_3 => cases hLast

theorem isBounded_readPairs_succ
    {pairs : List (Key × Value)}
    (hRead :
      readPairs (steps + 1) depth chars =
        some (pairs, rest)) :
    ∀ pair ∈ pairs, pair.2.IsBounded := by
  unfold readPairs at hRead
  split at hRead
  case h_1 =>
    cases hRead
    simp
  case h_2 => exact hSteps.morePairs hRead

theorem isBounded_readMorePairs_succ
    {pairs : List (Key × Value)}
    (hRead :
      readMorePairs (steps + 1) depth chars =
        some (pairs, rest)) :
    ∀ pair ∈ pairs, pair.2.IsBounded := by
  unfold readMorePairs at hRead
  rcases Option.bind_eq_some_iff.1 hRead with
    ⟨⟨key, afterKey⟩, hKey, hMark⟩
  rcases Option.bind_eq_some_iff.1 hMark with
    ⟨afterMark, hAfter, hValue⟩
  rcases Option.bind_eq_some_iff.1 hValue with
    ⟨⟨value, afterValue⟩, hFirst, hLast⟩
  have hBounded := hSteps.value hFirst
  dsimp only at hLast
  split at hLast
  case h_1 =>
    cases hLast
    simpa using hBounded
  case h_2 =>
    rcases Option.bind_eq_some_iff.1 hLast with
      ⟨⟨others, final⟩, hOthers, hEq⟩
    cases hEq
    intro pair hMem
    rcases List.mem_cons.1 hMem with rfl | hMem
    · exact hBounded
    · exact hSteps.morePairs hOthers pair hMem
  case h_3 => cases hLast

omit hSteps in
/- However many steps there are, what is read is bounded. -/
theorem readsBounded
    (steps : Nat) :
    ReadsBounded steps := by
  induction steps with
  | zero =>
      constructor
      · intro depth chars value rest hRead
        simp [readValueIn] at hRead
      · intro depth chars items rest hRead
        simp [readItems] at hRead
      · intro depth chars pairs rest hRead
        simp [readPairs] at hRead
      · intro depth chars pairs rest hRead
        simp [readMorePairs] at hRead
  | succ steps ih =>
      -- The readers call one another with a step less.
      constructor
      · exact isBounded_readValueIn_succ ih
      · exact isBounded_readItems_succ ih
      · exact isBounded_readPairs_succ ih
      · exact isBounded_readMorePairs_succ ih

end Toml

end LineShell

------------------------------------------------------------
-- Documents
------------------------------------------------------------

namespace LineShell

namespace Toml

/- The value of an entry was read from somewhere. -/
theorem exists_readValue_of_entry
    {chars rest : List Char}
    {key : Key}
    {value : Value}
    (hRead :
      readStatement chars = some (.entry key value, rest)) :
    ∃ start stop, readValue start = some (value, stop) := by
  unfold readStatement at hRead
  split at hRead
  case h_1 =>
    rcases Option.bind_eq_some_iff.1 hRead with
      ⟨⟨other, afterKey⟩, hKey, hFirst⟩
    rcases Option.bind_eq_some_iff.1 hFirst with
      ⟨afterFirst, hAfterFirst, hSecond⟩
    rcases Option.bind_eq_some_iff.1 hSecond with
      ⟨afterSecond, hAfterSecond, hEnd⟩
    rcases Option.bind_eq_some_iff.1 hEnd with
      ⟨final, hFinal, hEq⟩
    cases hEq
  case h_2 =>
    rcases Option.bind_eq_some_iff.1 hRead with
      ⟨⟨other, afterKey⟩, hKey, hMark⟩
    rcases Option.bind_eq_some_iff.1 hMark with
      ⟨afterMark, hAfterMark, hEnd⟩
    rcases Option.bind_eq_some_iff.1 hEnd with
      ⟨final, hFinal, hEq⟩
    cases hEq
  case h_3 =>
    rcases Option.bind_eq_some_iff.1 hRead with
      ⟨⟨other, afterKey⟩, hKey, hMark⟩
    rcases Option.bind_eq_some_iff.1 hMark with
      ⟨afterMark, hAfterMark, hValue⟩
    rcases Option.bind_eq_some_iff.1 hValue with
      ⟨⟨found, afterValue⟩, hReadValue, hEnd⟩
    rcases Option.bind_eq_some_iff.1 hEnd with
      ⟨final, hFinal, hEq⟩
    cases hEq
    exact ⟨_, afterValue, hReadValue⟩

/- Every statement of a text was read from somewhere. -/
theorem exists_readStatement_of_mem
    {lines : Nat}
    {chars : List Char}
    {statements : List Statement}
    (hRead : statementsIn lines chars = some statements)
    {statement : Statement}
    (hMem : statement ∈ statements) :
    ∃ start stop,
      readStatement start = some (statement, stop) := by
  induction lines generalizing chars statements with
  | zero => cases hRead
  | succ lines ih =>
      unfold statementsIn at hRead
      split at hRead
      case h_1 =>
        cases hRead
        cases hMem
      case h_2 =>
        rcases Option.bind_eq_some_iff.1 hRead with
          ⟨after, hAfter, hRest⟩
        exact ih hRest hMem
      case h_3 => exact ih hRead hMem
      case h_4 => exact ih hRead hMem
      case h_5 =>
        rcases Option.bind_eq_some_iff.1 hRead with
          ⟨⟨first, after⟩, hFirst, hRest⟩
        rcases Option.bind_eq_some_iff.1 hRest with
          ⟨others, hOthers, hEq⟩
        cases hEq
        rcases List.mem_cons.1 hMem with rfl | hMem
        · exact ⟨_, after, hFirst⟩
        · exact ih hOthers hMem

/- The statements of a text hold bounded values only. -/
theorem isBounded_of_statements?
    {chars : List Char}
    {statements : List Statement}
    (hRead : statements? chars = some statements) :
    ∀ statement ∈ statements, statement.IsBounded := by
  intro statement hMem
  rcases exists_readStatement_of_mem hRead hMem with
    ⟨start, stop, hStatement⟩
  cases statement with
  | table => trivial
  | row => trivial
  | entry key value =>
      rcases exists_readValue_of_entry hStatement with
        ⟨_, _, hValue⟩
      exact (readsBounded _).value hValue

/- A document holds integers of sixty-four bits only. -/
theorem isBounded_of_read?
    {text : String}
    {table : Table}
    (hRead : read? text = some table) :
    table.IsBounded := by
  rcases Option.bind_eq_some_iff.1 hRead with
    ⟨statements, hStatements, hTable⟩
  exact isBounded_assemble
    (isBounded_of_statements? hStatements)
    Table.isBounded_nil hTable

end Toml

end LineShell

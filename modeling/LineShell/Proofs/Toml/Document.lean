import LineShell.Proofs.Toml.Values
import LineShell.Toml.Document

/-
  Documents that are written section by section. Every line
  of them is read back as the statement that it was written
  for, and so are lines in a row; the statements then make a
  table of the tables of the sections.

  Key definitions include:
    * `Toml.IsBareKey`
    * `Toml.IsReadAs`
    * `Toml.Entry`
    * `Toml.Section`

  Correctness is proven by:
    * `Toml.readStatement_header`
    * `Toml.readStatement_entry`
    * `Toml.IsReadAs.append`
    * `Toml.Section.isReadAs_intercalate`
    * `Toml.Section.read?_intercalate`
-/

------------------------------------------------------------
-- Keys without quotes
------------------------------------------------------------

namespace LineShell

namespace Toml

/- A key that needs no quotes. -/
structure IsBareKey
    (key : String) : Prop where
  ne_nil : key.toList ≠ []
  bare : key.toList.all isBare = true

/- A key begins with none of the marks around it. -/
theorem IsBareKey.exists_cons
    {key : String}
    (hKey : IsBareKey key) :
    ∃ first others,
      key.toList = first :: others ∧
        ∀ c, isBare c = false → first ≠ c := by
  cases hChars : key.toList with
  | nil => exact absurd hChars hKey.ne_nil
  | cons first others =>
      refine ⟨first, others, rfl, ?_⟩
      rintro c hC rfl
      have hFirst : first ∈ key.toList := by
        rw [hChars]
        exact List.mem_cons_self ..
      rw [List.all_eq_true.1 hKey.bare first hFirst] at hC
      cases hC

variable
    {key : String}
    (hKey : IsBareKey key)
    {tail : List Char}

include hKey

theorem readKeyPart_of_isBareKey
    (hTail : tail.takeWhile isBare = []) :
    readKeyPart (key.toList ++ tail) = some (key, tail) := by
  have hTake :
      (key.toList ++ tail).takeWhile isBare =
        key.toList := by
    rw [List.takeWhile_append_of_pos
        (List.all_eq_true.1 hKey.bare), hTail,
      List.append_nil]
  have hDrop :
      (key.toList ++ tail).dropWhile isBare = tail := by
    rw [List.dropWhile_append_of_pos
      (List.all_eq_true.1 hKey.bare)]
    cases tail with
    | nil => rfl
    | cons c others =>
        cases hBare : isBare c with
        | true =>
            rw [List.takeWhile_cons_of_pos hBare] at hTail
            cases hTail
        | false =>
            apply List.dropWhile_cons_of_neg
            rw [hBare]
            exact Bool.false_ne_true
  rcases hKey.exists_cons with
    ⟨first, others, hChars, hFirst⟩
  unfold readKeyPart
  split
  case h_1 hList =>
    rw [hChars] at hList
    exact absurd (List.cons.inj hList).1
      (hFirst '\x22' (by decide))
  case h_2 hList =>
    rw [hChars] at hList
    exact absurd (List.cons.inj hList).1
      (hFirst '\x27' (by decide))
  case h_3 =>
    rw [hTake, hDrop]
    split
    case h_1 hNone => exact absurd hNone hKey.ne_nil
    case h_2 => rw [String.ofList_toList]

omit tail in
theorem skipBlanks_of_isBareKey
    (tail : List Char) :
    skipBlanks (key.toList ++ tail) = key.toList ++ tail := by
  rcases hKey.exists_cons with
    ⟨first, others, hChars, hFirst⟩
  rw [hChars, List.cons_append, skipBlanks,
    List.dropWhile_cons_of_neg]
  simp [isBlank, hFirst ' ' (by decide),
    hFirst '\t' (by decide)]

/- A bare key is read up to the next mark. -/
theorem readKey_of_isBareKey
    (hTail : tail.takeWhile isBare = [])
    (hDot : (skipBlanks tail).head? ≠ some '.') :
    readKey (key.toList ++ tail) =
      some (⟨[], key⟩, skipBlanks tail) := by
  have hPart := readKeyPart_of_isBareKey hKey hTail
  have hBlanks := skipBlanks_of_isBareKey hKey tail
  have hParts :
      readKeyParts (keyPartsLimit - 1)
          (key.toList ++ tail) =
        some ([key], skipBlanks tail) := by
    rw [keyPartsLimit, readKeyParts, hBlanks, hPart,
      Option.bind_eq_bind, Option.bind_some]
    dsimp only
    split
    case h_1 hList =>
      rw [hList] at hDot
      exact absurd rfl hDot
    case h_2 => rfl
  rw [readKey, hParts]
  rfl

end Toml

end LineShell

------------------------------------------------------------
-- Statements
------------------------------------------------------------

namespace LineShell

namespace Toml

/- The header of a table is read back. -/
theorem readStatement_header
    {name : String}
    (hName : IsBareKey name)
    (rest : List Char) :
    readStatement
        ('[' :: (name.toList ++ ']' :: '\n' :: rest)) =
      some (.table ⟨[], name⟩, rest) := by
  have hKey :
      readKey (name.toList ++ ']' :: '\n' :: rest) =
        some (⟨[], name⟩, ']' :: '\n' :: rest) :=
    readKey_of_isBareKey hName rfl (by simp [skipBlanks, isBlank])
  rcases hName.exists_cons with
    ⟨first, others, hChars, hFirst⟩
  unfold readStatement
  split
  case h_1 hList =>
    rw [hChars] at hList
    exact absurd (List.cons.inj (List.cons.inj hList).2).1
      (hFirst '[' (by decide))
  case h_2 hList =>
    cases hList
    rw [hKey]
    rfl
  case h_3 hNone =>
    exact absurd rfl (hNone _)

/- An entry of a table is read back. -/
theorem readStatement_entry
    {key : String}
    (hKey : IsBareKey key)
    {text : List Char}
    {value : Value}
    (hValue : IsValueText text value)
    (rest : List Char) :
    readStatement
        (key.toList ++
          ' ' :: '=' :: ' ' :: (text ++ '\n' :: rest)) =
      some (.entry ⟨[], key⟩ value, rest) := by
  have hRead :
      readKey
          (key.toList ++
            ' ' :: '=' :: ' ' :: (text ++ '\n' :: rest)) =
        some
          (⟨[], key⟩,
            '=' :: ' ' :: (text ++ '\n' :: rest)) :=
    readKey_of_isBareKey hKey rfl (by simp [skipBlanks, isBlank])
  have hBlanks :
      skipBlanks (' ' :: (text ++ '\n' :: rest)) =
        text ++ '\n' :: rest := by
    rcases hValue.starts with
      ⟨first, others, rfl, hFirst⟩
    have hSpace : isBlank ' ' = true := rfl
    rw [skipBlanks, List.dropWhile_cons_of_pos hSpace,
      List.cons_append, List.dropWhile_cons_of_neg]
    rw [hFirst]
    exact Bool.false_ne_true
  have hEnd :
      readValue (text ++ '\n' :: rest) =
        some (value, '\n' :: rest) :=
    hValue.reads rest
  have hTrailing :
      skipTrailing ('\n' :: rest) = some rest :=
    rfl
  rcases hKey.exists_cons with
    ⟨first, others, hChars, hFirst⟩
  unfold readStatement
  split
  case h_1 hList =>
    rw [hChars] at hList
    exact absurd (List.cons.inj hList).1
      (hFirst '[' (by decide))
  case h_2 hList =>
    rw [hChars] at hList
    exact absurd (List.cons.inj hList).1
      (hFirst '[' (by decide))
  case h_3 hNone =>
    rw [hRead]
    simp [skipMark, hBlanks, hEnd, hTrailing]

end Toml

end LineShell

------------------------------------------------------------
-- Lines in a row
------------------------------------------------------------

namespace LineShell

namespace Toml

/-
  Whatever text follows, the statements of a text are read
  in front of those of the other. They take no more lines
  than the text has characters.
-/
def IsReadAs
    (chars : List Char)
    (statements : List Statement) : Prop :=
  ∃ lines,
    lines ≤ chars.length ∧
      ∀ more rest others,
        statementsIn more rest = some others →
          statementsIn (more + lines) (chars ++ rest) =
            some (statements ++ others)

/- A text alone is read as its statements. -/
theorem IsReadAs.statements?_eq
    {chars : List Char}
    {statements : List Statement}
    (hRead : IsReadAs chars statements) :
    statements? chars = some statements := by
  rcases hRead with ⟨lines, hLines, hBefore⟩
  obtain ⟨more, hMore⟩ :
      ∃ more, chars.length + 1 = more + 1 + lines :=
    ⟨chars.length - lines, by omega⟩
  have hNone : statementsIn (more + 1) [] = some [] := rfl
  have hAll := hBefore (more + 1) [] [] hNone
  rw [List.append_nil, List.append_nil] at hAll
  rw [statements?, hMore]
  exact hAll

theorem isReadAs_nil :
    IsReadAs [] [] := by
  refine ⟨0, Nat.le_refl 0, ?_⟩
  intro more rest others hRest
  exact hRest

/- One text after the other is read statement by statement. -/
theorem IsReadAs.append
    {first second : List Char}
    {front back : List Statement}
    (hFirst : IsReadAs first front)
    (hSecond : IsReadAs second back) :
    IsReadAs (first ++ second) (front ++ back) := by
  rcases hFirst with ⟨lines, hLines, hFront⟩
  rcases hSecond with ⟨others, hOthers, hBack⟩
  refine ⟨others + lines, ?_, ?_⟩
  · rw [List.length_append]
    omega
  · intro more rest statements hRest
    -- The first text leaves as many lines as the second needs.
    have hBoth :=
      hFront (more + others) (second ++ rest) _
        (hBack more rest statements hRest)
    rw [List.append_assoc, List.append_assoc,
      ← Nat.add_assoc]
    exact hBoth

/- A line without anything on it says nothing. -/
theorem isReadAs_newline :
    IsReadAs ['\n'] [] := by
  refine ⟨1, Nat.le_refl 1, ?_⟩
  intro more rest others hRest
  exact hRest

/- A statement is read from its line. -/
theorem isReadAs_statement
    {first : Char}
    {others : List Char}
    {statement : Statement}
    (hFirst : first ∉ [' ', '\t', '#', '\n', '\r'])
    (hRead :
      ∀ rest,
        readStatement (first :: others ++ rest) =
          some (statement, rest)) :
    IsReadAs (first :: others) [statement] := by
  have hOther :
      first ≠ ' ' ∧ first ≠ '\t' ∧ first ≠ '#' ∧
        first ≠ '\n' ∧ first ≠ '\r' := by
    simpa using hFirst
  rcases hOther with
    ⟨hSpace, hTab, hHash, hNewline, hReturn⟩
  refine ⟨1, by simp, ?_⟩
  intro more rest statements hRest
  have hBlanks :
      skipBlanks (first :: others ++ rest) =
        first :: others ++ rest := by
    rw [List.cons_append, skipBlanks,
      List.dropWhile_cons_of_neg]
    simp [isBlank, hSpace, hTab]
  rw [statementsIn, hBlanks]
  split
  case h_1 hList => cases hList
  case h_2 hList =>
    exact absurd (List.cons.inj hList).1 hHash
  case h_3 hList =>
    exact absurd (List.cons.inj hList).1 hNewline
  case h_4 hList =>
    exact absurd (List.cons.inj hList).1 hReturn
  case h_5 =>
    rw [hRead]
    simp [hRest]

end Toml

end LineShell

------------------------------------------------------------
-- Sections
------------------------------------------------------------

namespace LineShell

namespace Toml

/- A key with the text of its value. -/
structure Entry where
  key : String
  text : String
  value : Value
  isBareKey : IsBareKey key
  isValueText : IsValueText text.toList value

/- A named row of entries. -/
structure Section where
  name : String
  isBareKey : IsBareKey name
  entries : List Entry

namespace Entry

/- The line of an entry as it is given to the writer. -/
def pair
    (entry : Entry) : String × String :=
  (entry.key, entry.text)

/- What the line of an entry says. -/
def statement
    (entry : Entry) : Statement :=
  .entry ⟨[], entry.key⟩ entry.value

/- The line of an entry is read as what it says. -/
theorem isReadAs
    (entry : Entry) :
    IsReadAs (writeEntry entry.pair).toList
      [entry.statement] := by
  rcases entry.isBareKey.exists_cons with
    ⟨first, others, hKey, hFirst⟩
  have hChars :
      (writeEntry entry.pair).toList =
        first :: (others ++
          ' ' :: '=' :: ' ' ::
            (entry.text.toList ++ ['\n'])) := by
    simp [writeEntry, pair, hKey]
  rw [hChars]
  apply isReadAs_statement
  · simp [hFirst ' ' (by decide), hFirst '\t' (by decide),
      hFirst '#' (by decide), hFirst '\n' (by decide),
      hFirst '\r' (by decide)]
  · intro rest
    have hRead :=
      readStatement_entry entry.isBareKey
        entry.isValueText rest
    rw [hKey] at hRead
    simpa [statement] using hRead

end Entry

namespace Section

/- The text of a section. -/
def text
    (part : Section) : String :=
  writeSection part.name (part.entries.map Entry.pair)

/- What the lines of a section say. -/
def statements
    (part : Section) : List Statement :=
  .table ⟨[], part.name⟩ ::
    part.entries.map Entry.statement

/- The header of a section is read as one. -/
theorem isReadAs_header
    {name : String}
    (hName : IsBareKey name) :
    IsReadAs ("[" ++ name ++ "]\n").toList
      [.table ⟨[], name⟩] := by
  have hChars :
      ("[" ++ name ++ "]\n").toList =
        '[' :: (name.toList ++ [']', '\n']) := by
    simp
  rw [hChars]
  apply isReadAs_statement
  · decide
  · intro rest
    simpa using readStatement_header hName rest

/- A section is read line by line. -/
theorem isReadAs
    (part : Section) :
    IsReadAs part.text.toList part.statements := by
  have hEntries :
      IsReadAs
        (String.join
          ((part.entries.map Entry.pair).map
            writeEntry)).toList
        (part.entries.map Entry.statement) := by
    induction part.entries with
    | nil => exact isReadAs_nil
    | cons entry others ih =>
        simpa using entry.isReadAs.append ih
  rw [text, writeSection, String.toList_append]
  exact (isReadAs_header part.isBareKey).append hEntries

/- Sections with blank lines between them are read in a row. -/
theorem isReadAs_intercalate
    (parts : List Section) :
    IsReadAs
      ("\n".intercalate (parts.map text)).toList
      (parts.flatMap statements) := by
  induction parts with
  | nil => exact isReadAs_nil
  | cons part others ih =>
      by_cases hSome : others = []
      · subst hSome
        simpa using part.isReadAs
      · have hMap : others.map text ≠ [] := by
          simpa using hSome
        have hBoth :=
          part.isReadAs.append
            (isReadAs_newline.append ih)
        rw [List.map_cons,
          String.intercalate_cons_of_ne_nil hMap]
        simpa using hBoth

theorem exists_text
    (part : Section) :
    ∃ others, part.text.toList = '[' :: others := by
  refine
    ⟨(part.name ++ "]\n" ++
      String.join
        ((part.entries.map Entry.pair).map
          writeEntry)).toList, ?_⟩
  simp [text, writeSection]

/- A document of sections begins with no mark of bytes. -/
theorem skipByteOrderMark_intercalate
    (parts : List Section) :
    skipByteOrderMark
        ("\n".intercalate (parts.map text)).toList =
      ("\n".intercalate (parts.map text)).toList := by
  cases parts with
  | nil => rfl
  | cons part others =>
      rcases part.exists_text with ⟨more, hText⟩
      by_cases hSome : others = []
      · subst hSome
        rw [List.map_singleton, String.intercalate_singleton,
          hText]
        rfl
      · have hMap : others.map text ≠ [] := by
          simpa using hSome
        rw [List.map_cons,
          String.intercalate_cons_of_ne_nil hMap,
          String.toList_append, String.toList_append, hText]
        rfl

end Section

end Toml

end LineShell

------------------------------------------------------------
-- Tables of sections
------------------------------------------------------------

namespace LineShell

namespace Toml

variable
    {key : String}
    {front : Table}
    (hNew : key ∉ front.map Prod.fst)

include hNew

theorem lookUp_of_not_mem :
    lookUp key front = none := by
  rw [lookUp, Option.map_eq_none_iff, List.find?_eq_none]
  intro entry hMem hKey
  exact hNew
    (List.mem_map.2 ⟨entry, hMem, of_decide_eq_true hKey⟩)

theorem filter_of_not_mem :
    front.filter (·.1 ≠ key) = front := by
  apply List.filter_eq_self.2
  intro entry hMem
  rw [decide_eq_true_eq]
  rintro rfl
  exact hNew (List.mem_map_of_mem hMem)

/- The value of a new key stands last. -/
theorem store_of_not_mem
    (value : Value) :
    store key value front = front ++ [(key, value)] := by
  rw [store, filter_of_not_mem hNew]

theorem lookUp_last
    (value : Value) :
    lookUp key (front ++ [(key, value)]) = some value := by
  have hStored := lookUp_store key key value front
  rw [store_of_not_mem hNew, if_pos rfl] at hStored
  exact hStored

/- A new value of the last key takes the place of the old. -/
theorem store_last
    (old value : Value) :
    store key value (front ++ [(key, old)]) =
      front ++ [(key, value)] := by
  have hLast :
      [(key, old)].filter (·.1 ≠ key) = [] := by
    simp
  rw [store, List.filter_append, filter_of_not_mem hNew,
    hLast, List.append_nil]

omit hNew

namespace Section

/- The table that a section describes. -/
def table
    (part : Section) : Table :=
  part.entries.map fun entry => (entry.key, entry.value)

/- No name and no key of a document is given twice. -/
structure AreDistinct
    (parts : List Section) : Prop where
  names : (parts.map Section.name).Nodup
  keys :
    ∀ part ∈ parts, (part.entries.map Entry.key).Nodup

/- Entries go one by one into the table of their section. -/
theorem assemble_entries
    {name : String}
    (hName : name ∉ front.map Prod.fst)
    (table : Table)
    {entries : List Entry}
    (hKeys :
      (table.map Prod.fst ++
        entries.map Entry.key).Nodup)
    (others : List Statement) :
    assemble [name]
        (entries.map Entry.statement ++ others)
        (front ++ [(name, .table .header table)]) =
      assemble [name] others
        (front ++
          [(name, .table .header
            (table ++
              entries.map fun entry =>
                (entry.key, entry.value)))]) := by
  induction entries generalizing table with
  | nil => simp
  | cons entry rest ih =>
      -- The open table is the last one, and it grows at its end.
      have hEntry : entry.key ∉ table.map Prod.fst := by
        intro hMem
        exact (List.nodup_append.1 hKeys).2.2 _ hMem _
          (List.mem_cons_self ..) rfl
      have hInsert :
          insertDotted entry.value entry.key true [] table =
            some (table ++ [(entry.key, entry.value)]) := by
        rw [insertDotted, lookUp_of_not_mem hEntry,
          store_of_not_mem hEntry]
        rfl
      have hWithin :
          within (insertDotted entry.value entry.key true [])
              [name]
              (front ++ [(name, .table .header table)]) =
            some
              (front ++
                [(name, .table .header
                  (table ++
                    [(entry.key, entry.value)]))]) := by
        rw [within, lookUp_last hName]
        simp only [within, hInsert, Option.map_some,
          store_last hName]
      have hRest :
          ((table ++ [(entry.key, entry.value)]).map
              Prod.fst ++
            rest.map Entry.key).Nodup := by
        simpa using hKeys
      have hStep := ih _ hRest
      rw [List.append_assoc] at hStep
      rw [List.map_cons, List.cons_append, Entry.statement,
        assemble]
      simp only [hWithin, Option.bind_some]
      exact hStep

/- Sections go one by one into the table of their document. -/
theorem assemble_statements
    (front : Table)
    {parts : List Section}
    (hNames :
      (front.map Prod.fst ++
        parts.map Section.name).Nodup)
    (hKeys :
      ∀ part ∈ parts,
        (part.entries.map Entry.key).Nodup)
    (header : List String) :
    assemble header (parts.flatMap statements) front =
      some
        (front ++
          parts.map fun part =>
            (part.name, .table .header part.table)) := by
  induction parts generalizing front header with
  | nil => simp [assemble]
  | cons part rest ih =>
      rcases List.forall_mem_cons.1 hKeys with
        ⟨hFirst, hOthers⟩
      have hPart : part.name ∉ front.map Prod.fst := by
        intro hMem
        exact (List.nodup_append.1 hNames).2.2 _ hMem _
          (List.mem_cons_self ..) rfl
      have hOpen :
          within (openTable part.name) [] front =
            some
              (front ++
                [(part.name, .table .header [])]) := by
        rw [within, openTable, lookUp_of_not_mem hPart,
          store_of_not_mem hPart]
      have hEntries :
          assemble [part.name]
              (part.entries.map Entry.statement ++
                rest.flatMap statements)
              (front ++ [(part.name, .table .header [])]) =
            assemble [part.name] (rest.flatMap statements)
              (front ++
                [(part.name, .table .header part.table)]) :=
        assemble_entries hPart [] hFirst _
      have hRest :
          ((front ++
              [(part.name,
                Value.table .header part.table)]).map
              Prod.fst ++
            rest.map Section.name).Nodup := by
        simpa using hNames
      have hStep := ih _ hRest hOthers [part.name]
      rw [List.append_assoc] at hStep
      rw [List.flatMap_cons, statements, List.cons_append,
        assemble]
      simp only [hOpen, Option.bind_some]
      exact hEntries.trans hStep

/-
  A document of sections describes a table of their tables.
-/
theorem read?_intercalate
    {parts : List Section}
    (hParts : AreDistinct parts) :
    read? ("\n".intercalate (parts.map text)) =
      some
        (parts.map fun part =>
          (part.name, .table .header part.table)) := by
  have hTable :
      assemble [] (parts.flatMap statements) [] =
        some
          (parts.map fun part =>
            (part.name, .table .header part.table)) :=
    assemble_statements [] hParts.names hParts.keys []
  rw [read?, skipByteOrderMark_intercalate,
    (isReadAs_intercalate parts).statements?_eq]
  exact hTable

end Section

end Toml

end LineShell

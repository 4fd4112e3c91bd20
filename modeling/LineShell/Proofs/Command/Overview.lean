import LineShell.Proofs.Command.Registered
import LineShell.Proofs.Line.Quoting
import LineShell.Proofs.Session.Status
import LineShell.Proofs.Text.Slices

/-
  What `help` shows: a row for each registered command, in
  the order of names, and one for the word that ends a
  session. The width of the first column is a number of
  bytes, and names are padded to it by characters. It is
  wide enough nevertheless, so all summaries start in the
  same column.

  Key definitions include:
    * `Guide.IsRow`
    * `Guide.IsTable`
    * `Registry.IsOverview`

  Correctness is proven by:
    * `Guide.isRow_row`
    * `Registry.isOverview_overview`
    * `Shell.help_lists_commands`
-/

------------------------------------------------------------
-- Rows and tables
------------------------------------------------------------

namespace LineShell

namespace Guide

/-
  A row shows a name and a summary: between them are spaces,
  two at least, and before the summary are as many
  characters as the column says.
-/
def IsRow
    (column : Nat)
    (entry : String × String)
    (row : String) : Prop :=
  ∃ gap : String,
    (∀ c ∈ gap.toList, c = ' ') ∧
      2 ≤ gap.length ∧
        (entry.1 ++ gap).length = column ∧
          row = entry.1 ++ gap ++ entry.2 ++ "\n"

/- A table shows entries in rows of the same column. -/
inductive IsTable
    (column : Nat) :
    List (String × String) → String → Prop
  | nil : IsTable column [] ""
  | cons
      {entry : String × String}
      {entries : List (String × String)}
      {row text : String}
      (hRow : IsRow column entry row)
      (hRest : IsTable column entries text) :
      IsTable column (entry :: entries) (row ++ text)

end Guide

/-
  A text is an overview of a registry: a table of the names
  and summaries of all its commands, in ascending order of
  the bytes of their names, so that none is there twice, and
  of the word that ends a session.
-/
def Registry.IsOverview
    (registry : Registry)
    (text : String) : Prop :=
  ∃ (listed : List Command) (column : Nat),
    (∀ command,
      command ∈ listed ↔
        registry.find? command.name = some command) ∧
      (listed.Pairwise fun first second =>
        Utf8.bytes first.name < Utf8.bytes second.name) ∧
        Guide.IsTable column
          (listed.map (fun command =>
              (command.name, command.signature.summary)) ++
            [("exit", "leave the terminal")])
          text

end LineShell

------------------------------------------------------------
-- Rows in one column
------------------------------------------------------------

namespace LineShell

/- Each character takes a byte at least. -/
theorem Text.length_le_utf8ByteSize
    (text : String) :
    text.length ≤ text.utf8ByteSize := by
  rw [← Text.byteLength_toList, ← String.length_toList]
  induction text.toList with
  | nil => exact Nat.le_refl 0
  | cons c chars ih =>
      have hSome := c.utf8Size_pos
      rw [List.length_cons, Text.byteLength_cons]
      omega

namespace Guide

/-
  A row has its summary in the column behind two spaces if
  the name has no more bytes than the column before them.
-/
theorem isRow_row
    {width : Nat}
    {entry : String × String}
    (hWidth : entry.1.utf8ByteSize ≤ width) :
    IsRow (width + 2) entry (row width entry) := by
  have hFits : entry.1.length ≤ width :=
    Nat.le_trans (Text.length_le_utf8ByteSize _) hWidth
  have hPad :
      String.ofList (entry.1.toList.rightpad width ' ') =
        entry.1 ++
          String.ofList
            (List.replicate (width - entry.1.length)
              ' ') := by
    apply String.toList_inj.1
    rw [String.toList_ofList, String.toList_append,
      String.toList_ofList, List.rightpad,
      String.length_toList]
  refine
    ⟨String.ofList
        (List.replicate (width - entry.1.length) ' ') ++
      "  ", ?_, ?_, ?_, ?_⟩
  · intro c hMem
    rw [String.toList_append, String.toList_ofList]
      at hMem
    rcases List.mem_append.1 hMem with hPadding | hSpaces
    · exact List.eq_of_mem_replicate hPadding
    · simpa using hSpaces
  · rw [String.length_append]
    exact Nat.le_add_left 2 _
  · have hLength :
        (String.ofList
            (List.replicate (width - entry.1.length)
              ' ')).length =
          width - entry.1.length := by
      rw [String.length_ofList, List.length_replicate]
    have hTwo : "  ".length = 2 := rfl
    rw [String.length_append, String.length_append, hLength,
      hTwo]
    omega
  · rw [row, hPad]
    simp only [String.append_assoc]

/- Rows of one width make a table. -/
theorem isTable_join
    {width : Nat}
    {entries : List (String × String)}
    (hWidth :
      ∀ entry ∈ entries, entry.1.utf8ByteSize ≤ width) :
    IsTable (width + 2) entries
      (String.join (entries.map (row width))) := by
  induction entries with
  | nil => exact .nil
  | cons entry entries ih =>
      rcases List.forall_mem_cons.1 hWidth with
        ⟨hEntry, hRest⟩
      rw [List.map_cons, String.join_cons]
      exact .cons (isRow_row hEntry) (ih hRest)

/- The longest name of a catalogue sets the width. -/
theorem exists_isTable_overview
    (catalogue : List Signature) :
    ∃ column,
      IsTable column (rows catalogue)
        (overview catalogue) := by
  refine ⟨_, isTable_join ?_⟩
  intro entry hMem
  have hByte :
      entry.1.utf8ByteSize ∈
        (rows catalogue).map (·.1.utf8ByteSize) :=
    List.mem_map_of_mem hMem
  rw [List.foldl_max, Nat.zero_max]
  exact List.le_max?_getD_of_mem hByte

end Guide

/- The catalogue of a registry is shown as its overview. -/
theorem Registry.isOverview_overview
    (registry : Registry) :
    registry.IsOverview
      (Guide.overview registry.signatures) := by
  have hRows :
      Guide.rows registry.signatures =
        registry.commands.map (fun command =>
            (command.name, command.signature.summary)) ++
          [("exit", "leave the terminal")] := by
    rw [Guide.rows, signatures, List.map_map]
    rfl
  rcases Guide.exists_isTable_overview
      registry.signatures with
    ⟨column, hTable⟩
  rw [hRows] at hTable
  refine ⟨registry.commands, column, ?_, ?_, hTable⟩
  · intro command
    rw [find?_eq_some_iff]
    simp
  · refine registry.sorted.imp ?_
    intro first second hLess
    exact Utf8.bytes_lt_bytes_iff.2 hLess

end LineShell

------------------------------------------------------------
-- The answer of `help`
------------------------------------------------------------

namespace LineShell

namespace Shell

/-
  A text whose only word is `help` succeeds where that
  command is registered, wherever the text stands in a line:
  it shows an overview of the registry and changes nothing.
-/
theorem help_lists_commands
    {shell : Shell}
    (hHelp :
      shell.registry.find? "help" = some Guide.help)
    {text : String}
    (hText : Scan.ofLine text = .ok ⟨["help"], none⟩)
    (input : Option String)
    (toUser : Bool)
    (world : World) :
    ∃ shown,
      (shell.evaluateFor text input toUser world).outcome =
          .success (some shown) ∧
        (shell.evaluateFor text input toUser world).world =
            world ∧
          shell.registry.IsOverview shown := by
  have hLine :
      Directive.ofLine shell.registry.contains text =
        .ok (.simple "help" []) := by
    rw [Directive.ofLine_of_words hText]
    simp [Directive.ofWords, Registry.contains, hHelp]
  have hRun :
      shell.evaluateFor text input toUser world =
        ⟨.success
            (some
              (Guide.overview shell.registry.signatures)),
          world,
          [.recognized text .simple,
            .entered "help" []]⟩ := by
    rw [evaluateFor_of_simple input toUser world hLine,
      dispatch, hHelp]
    rfl
  rw [hRun]
  exact ⟨_, rfl, rfl, shell.registry.isOverview_overview⟩

/- Two commands are listed in order and `exit` behind them. -/
theorem help_lists_itself_behind_cat :
    ((Registry.empty.insert Guide.help).insert
          Reading.cat).find? "help" =
        some Guide.help ∧
      Scan.ofLine " 'help'" = .ok ⟨["help"], none⟩ ∧
      (Shell.evaluateFor
          ⟨(Registry.empty.insert Guide.help).insert
            Reading.cat, true⟩
          " 'help'" none true
          ⟨FileSystem.empty, ⟨"/", "/"⟩⟩).outcome =
        .success
          (some
            ("cat   concatenate files, or pass piped " ++
              "input through\n" ++
              "help  list commands, or show usage for one\n" ++
              "exit  leave the terminal\n")) ∧
      ((Registry.empty.insert Guide.help).insert
          Reading.cat).IsOverview
        ("cat   concatenate files, or pass piped " ++
          "input through\n" ++
          "help  list commands, or show usage for one\n" ++
          "exit  leave the terminal\n") := by
  have hHelp :
      ((Registry.empty.insert Guide.help).insert
          Reading.cat).find? "help" =
        some Guide.help := by
    rw [Registry.find?_insert, Registry.find?_insert]
    rfl
  have hText :
      Scan.ofLine " 'help'" = .ok ⟨["help"], none⟩ := by
    rfl
  have hShown :
      (Shell.evaluateFor
          ⟨(Registry.empty.insert Guide.help).insert
            Reading.cat, true⟩
          " 'help'" none true
          ⟨FileSystem.empty, ⟨"/", "/"⟩⟩).outcome =
        .success
          (some
            ("cat   concatenate files, or pass piped " ++
              "input through\n" ++
              "help  list commands, or show usage for one\n" ++
              "exit  leave the terminal\n")) := by
    decide +kernel
  rcases @help_lists_commands
      ⟨(Registry.empty.insert Guide.help).insert
        Reading.cat, true⟩
      hHelp _ hText none true
      ⟨FileSystem.empty, ⟨"/", "/"⟩⟩ with
    ⟨shown, hOutcome, _, hOverview⟩
  have hOutput :=
    congrArg Outcome.output (hOutcome.symm.trans hShown)
  rw [Option.some.inj hOutput] at hOverview
  exact ⟨hHelp, hText, hShown, hOverview⟩

end Shell

end LineShell

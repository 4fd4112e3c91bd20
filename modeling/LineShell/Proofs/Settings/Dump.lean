import LineShell.Proofs.Command.Standard
import LineShell.Proofs.Settings.Overlay
import LineShell.Proofs.Toml.Document
import LineShell.Settings.Writer

/-
  Settings that are written and loaded again. Whatever was
  loaded can be written, and what is written loads as the
  same settings, with the repeats among the disabled
  commands taken away.

  Key definitions include:
    * `Settings.sections`
    * `Settings.withoutRepeats`

  Correctness is proven by:
    * `Settings.read?_toToml`
    * `Settings.load_toToml`
    * `Settings.load_reloads`
-/

------------------------------------------------------------
-- The sections of a dump
------------------------------------------------------------

namespace LineShell

namespace Settings

open Toml (Value Table)

/- An entry for a text. -/
def textEntry
    (key : String)
    (isBareKey : Toml.IsBareKey key)
    (text : String) : Toml.Entry where
  key := key
  text := Toml.writeString text
  value := .string text
  isBareKey := isBareKey
  isValueText := Toml.isValueText_writeString text

/- The sections in which settings are written. -/
def sections
    (settings : Settings)
    (hRange : Toml.isInRange settings.pageLines = true) :
    List Toml.Section :=
  [ { name := "settings"
      isBareKey := ⟨by decide, by decide⟩
      entries :=
        [ textEntry "prompt" ⟨by decide, by decide⟩
            settings.prompt,
          textEntry "log_level" ⟨by decide, by decide⟩
            settings.logLevel,
          textEntry "log_file" ⟨by decide, by decide⟩
            settings.logFile,
          textEntry "history_file" ⟨by decide, by decide⟩
            settings.historyFile ] },
    { name := "commands"
      isBareKey := ⟨by decide, by decide⟩
      entries :=
        [ { key := "disabled"
            text := Toml.writeStrings settings.disabled
            value := .array (settings.disabled.map .string)
            isBareKey := ⟨by decide, by decide⟩
            isValueText :=
              Toml.isValueText_writeStrings
                settings.disabled } ] },
    { name := "date"
      isBareKey := ⟨by decide, by decide⟩
      entries :=
        [ textEntry "format" ⟨by decide, by decide⟩
            settings.dateFormat ] },
    { name := "more"
      isBareKey := ⟨by decide, by decide⟩
      entries :=
        [ { key := "page_lines"
            text := toString settings.pageLines
            value := .integer settings.pageLines
            isBareKey := ⟨by decide, by decide⟩
            isValueText :=
              Toml.isValueText_toString hRange } ] } ]

/- The table that a dump describes. -/
def table
    (settings : Settings) : Table :=
  [ ("settings", .table .header
      [ ("prompt", .string settings.prompt),
        ("log_level", .string settings.logLevel),
        ("log_file", .string settings.logFile),
        ("history_file", .string settings.historyFile) ]),
    ("commands", .table .header
      [ ("disabled",
          .array (settings.disabled.map .string)) ]),
    ("date", .table .header
      [ ("format", .string settings.dateFormat) ]),
    ("more", .table .header
      [ ("page_lines", .integer settings.pageLines) ]) ]

theorem areDistinct_sections
    (settings : Settings)
    (hRange : Toml.isInRange settings.pageLines = true) :
    Toml.Section.AreDistinct
      (settings.sections hRange) := by
  constructor
  · have hNames :
        (settings.sections hRange).map Toml.Section.name =
          ["settings", "commands", "date", "more"] :=
      rfl
    rw [hNames]
    decide
  · intro part hMem
    simp only [sections, List.mem_cons, List.not_mem_nil,
      or_false] at hMem
    rcases hMem with rfl | rfl | rfl | rfl
    · simp [textEntry]
    · simp
    · simp
    · simp

/- A dump describes its table. -/
theorem read?_toToml
    {settings : Settings}
    (hRange : Toml.isInRange settings.pageLines = true) :
    Toml.read? settings.toToml = some settings.table := by
  have hText :
      settings.toToml =
        "\n".intercalate
          ((settings.sections hRange).map
            Toml.Section.text) :=
    rfl
  rw [hText,
    Toml.Section.read?_intercalate
      (areDistinct_sections settings hRange)]
  rfl

end Settings

end LineShell

------------------------------------------------------------
-- What a dump chooses
------------------------------------------------------------

namespace LineShell

namespace Settings

open Toml (Value Table)

/- The choice of everything that settings say. -/
def overlay
    (settings : Settings) : Overlay where
  prompt := some settings.prompt
  logLevel := some settings.logLevel
  logFile := some settings.logFile
  historyFile := some settings.historyFile
  replace := false
  disabled := settings.disabled
  removeDisabled := []
  dateFormat := some settings.dateFormat
  pageLines := some settings.pageLines

/- Settings without repeats among the disabled commands. -/
def withoutRepeats
    (settings : Settings) : Settings :=
  { settings with
    disabled := settings.disabled.eraseDups }

/- The table of a dump chooses everything. -/
theorem ofTable?_table
    (settings : Settings) :
    Overlay.ofTable? settings.table =
      some settings.overlay := by
  have hTexts :
      Overlay.texts?
          (.array (settings.disabled.map .string)) =
        some settings.disabled :=
    Overlay.texts?_eq_some_iff.2 rfl
  simp [Overlay.ofTable?, table, Overlay.Section.of?,
    Toml.lookUp, Overlay.Section.optional?,
    Overlay.Section.withDefault?, Overlay.Section.value?,
    Overlay.text?, Overlay.count?, hTexts, overlay]

/- Settings of which everything was chosen are the choice. -/
theorem apply_overlay
    (settings : Settings) :
    settings.overlay.apply standard =
      settings.withoutRepeats := by
  have hMerged :
      Overlay.mergeList standard.disabled settings.disabled
          [] false =
        settings.disabled.eraseDups :=
    Overlay.addNew_nil settings.disabled
  unfold Overlay.apply overlay withoutRepeats
  dsimp only
  rw [hMerged]
  rfl

theorem toToml?_of_isInRange
    {settings : Settings}
    (hRange : Toml.isInRange settings.pageLines = true) :
    settings.toToml? = some settings.toToml :=
  if_pos hRange

/- What is written for settings loads as the settings. -/
theorem load_toToml
    {settings : Settings}
    (hRange : Toml.isInRange settings.pageLines = true) :
    load (some settings.toToml.toByteArray) =
      settings.withoutRepeats := by
  have hBytes :
      Overlay.ofBytes? settings.toToml.toByteArray =
        some settings.overlay := by
    rw [Overlay.ofBytes?, Utf8.decode?_toByteArray,
      Option.bind_some, read?_toToml hRange,
      Option.bind_some, ofTable?_table]
  rw [load, Option.bind_some, hBytes]
  exact apply_overlay settings

end Settings

end LineShell

------------------------------------------------------------
-- Loading what was dumped
------------------------------------------------------------

namespace LineShell

namespace Settings

/- Repeats among the disabled commands disable nothing more. -/
theorem standard_withoutRepeats
    (clock : Clock)
    (settings : Settings) :
    Registry.standard clock settings.withoutRepeats =
      Registry.standard clock settings := by
  apply Registry.standard_disabling
  intro command hMem
  exact List.mem_eraseDups

theorem withoutRepeats_withoutRepeats
    (settings : Settings) :
    settings.withoutRepeats.withoutRepeats =
      settings.withoutRepeats := by
  have hOnce :=
    eraseDups_of_nodup (nodup_eraseDups settings.disabled)
  unfold withoutRepeats
  dsimp only
  rw [hOnce]

/-
  Whatever was loaded, it can be written. What is written
  loads as the same settings without repeats among the
  disabled commands. They make the same commands, and they
  can be written and loaded again without any change.
-/
theorem load_reloads
    (bytes : Option ByteArray) :
    ∃ text reloaded,
      (load bytes).toToml? = some text ∧
        load (some text.toByteArray) = reloaded ∧
        reloaded = (load bytes).withoutRepeats ∧
        (∀ clock,
          Registry.standard clock reloaded =
            Registry.standard clock (load bytes)) ∧
        ∃ again,
          reloaded.toToml? = some again ∧
            load (some again.toByteArray) = reloaded := by
  have hRange := isInRange_pageLines_load bytes
  have hAgain :
      Toml.isInRange (load bytes).withoutRepeats.pageLines =
        true :=
    hRange
  refine
    ⟨_, _, toToml?_of_isInRange hRange, load_toToml hRange,
      rfl, ?_, _, toToml?_of_isInRange hAgain, ?_⟩
  · intro clock
    exact standard_withoutRepeats clock (load bytes)
  · rw [load_toToml hAgain, withoutRepeats_withoutRepeats]

end Settings

end LineShell

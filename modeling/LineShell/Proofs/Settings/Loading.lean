import LineShell.Proofs.Settings.Fields
import LineShell.Proofs.Toml.Edited

/-
  Settings that are loaded from a file. The choices of a
  file count as a whole or not at all: one value that is not
  accepted, wherever it stands, leaves the standard
  settings. Otherwise every field has the value that the
  file gives to it, and nothing else in the file counts.

  Key definitions include:
    * `Overlay.known`
    * `Overlay.Document`
    * `Overlay.Field.Decides`
    * `Settings.IsChosenBy`
    * `Settings.IsLoadedFrom`
    * `Settings.LoadsWhole`

  Correctness is proven by:
    * `Overlay.Field.acceptsAll_of_isCoveredBy`
    * `Overlay.Field.given_of_isCoveredBy`
    * `Settings.isLoadedFrom_load`
    * `Settings.load_eq_of_agreesWith`
    * `Settings.load_is_whole`
-/

------------------------------------------------------------
-- What is known of documents
------------------------------------------------------------

namespace LineShell

namespace Overlay

open Toml (Content Facts Value)

/-
  What is known of documents: a section that is anything but
  a table, and all that is at the key of a field or below.
-/
def known : Facts :=
  fun path content =>
    ∃ field : Field,
      path = [field.header] ∧ content ≠ .table ∨
        ∃ below, path = field.header :: field.key :: below

theorem isStable_known : known.IsStable := by
  rintro path content other ⟨field, hField⟩ hAlike
  refine ⟨field, hField.imp_left ?_⟩
  rintro ⟨hPath, hContent⟩
  refine ⟨hPath, ?_⟩
  rintro rfl
  cases hAlike
  exact hContent rfl

namespace Field

variable
    {field : Field}

/- The value of an item that is accepted and one alike. -/
theorem eq_of_areAlike
    {value? other? : Option Value}
    (hAlike : Toml.AreAlike value? other?)
    (hAccepts :
      ∀ other,
        other? = some other → field.kind.Accepts other) :
    value? = other? := by
  cases hOther : other? with
  | none => exact hAlike.none_iff.2 hOther
  | some other =>
      cases hValue : value? with
      | none =>
          rw [hAlike.none_iff.1 hValue] at hOther
          cases hOther
      | some value =>
          rw [Kind.eq_of_accepts_of_alike
            (hAccepts other hOther)
            (hAlike.alike hValue hOther).symm]

/- What is alike to something accepted is accepted. -/
theorem accepts_of_alike
    {path : List String}
    {content other : Content}
    (hAlike : content.Alike other)
    (hAccepts : field.Accepts path other) :
    field.Accepts path content := by
  cases hAccepts with
  | table =>
      cases hAlike
      exact .table
  | date =>
      rcases hAlike with _ | _ | ⟨⟨⟩⟩
      exact .date
  | list hItem hMissing =>
      rcases hAlike with _ | _ | hValue
      rcases Toml.exists_of_alike_array hValue with
        ⟨items, rfl, hItems⟩
      have hSame := eq_of_areAlike (hItems _) hItem
      rw [← hSame] at hItem hMissing
      exact .list hItem hMissing
  | value hKind =>
      rcases hAlike with _ | _ | hValue
      cases Kind.eq_of_accepts_of_alike hKind hValue.symm
      exact .value hKind
  | other hOther => exact .other hOther

variable
    {facts others : Facts}
    (hCovered : facts.IsCoveredBy others known)
    (hAccepts : field.AcceptsAll others)

include hCovered hAccepts

/- A field accepts what others that it accepts cover. -/
theorem acceptsAll_of_isCoveredBy :
    field.AcceptsAll facts := by
  intro path content hFact
  have hKnown :
      known (field.header :: path) content →
        field.Accepts path content := by
    intro hAsked
    rcases hCovered _ _ hAsked hFact with
      ⟨other, hOther, hAlike⟩
    exact accepts_of_alike hAlike
      (hAccepts path other hOther)
  cases path with
  | nil =>
      by_cases hTable : content = .table
      · subst hTable
        exact .table
      · exact hKnown ⟨field, .inl ⟨rfl, hTable⟩⟩
  | cons key below =>
      by_cases hKey : key = field.key
      · subst hKey
        exact hKnown ⟨field, .inr ⟨below, rfl⟩⟩
      · exact .other hKey

/- What is given is given by others that cover it as well. -/
theorem given_of_isCoveredBy
    {value : Value}
    (hGiven : field.Given facts value) :
    field.Given others value := by
  cases hGiven with
  | keyed hFact =>
      rcases hCovered _ _ ⟨field, .inr ⟨[], rfl⟩⟩ hFact with
        ⟨other, hOther, hAlike⟩
      rcases hAlike with _ | _ | hValue
      have hKind := hAccepts _ _ hOther
      rw [accepts_key_iff] at hKind
      rcases hKind with ⟨_, found, hFound, hKind⟩
      cases hFound
      cases Kind.eq_of_accepts_of_alike hKind hValue.symm
      exact .keyed hOther
  | listed hFact hItem =>
      rcases hCovered _ _ ⟨field, .inl ⟨rfl, by simp⟩⟩ hFact
        with ⟨other, hOther, hAlike⟩
      rcases hAlike with _ | _ | hValue
      rcases Toml.exists_of_alike_array hValue.symm with
        ⟨items, rfl, hItems⟩
      rcases hAccepts _ _ hOther with _ | _ | ⟨hKind, _⟩
      have hSame := eq_of_areAlike (hItems _).symm hKind
      exact .listed hOther (hSame.symm.trans hItem)

end Field

end Overlay

end LineShell

------------------------------------------------------------
-- Documents
------------------------------------------------------------

namespace LineShell

namespace Overlay

open Toml (Facts Statement Table)

/- What the bytes of a file are if they are a document. -/
structure Document
    (bytes : ByteArray) where
  text : String
  statements : List Statement
  table : Table
  decode?_eq : Utf8.decode? bytes = some text
  statements?_eq :
    Toml.statements? (Toml.skipByteOrderMark text.toList) =
      some statements
  assemble_eq :
    Toml.assemble [] statements [] = some table

namespace Document

/- A text that is read is a document. -/
theorem nonempty_of_read?
    {bytes : ByteArray}
    {text : String}
    {table : Table}
    (hText : Utf8.decode? bytes = some text)
    (hRead : Toml.read? text = some table) :
    Nonempty (Document bytes) := by
  rcases Option.bind_eq_some_iff.1 hRead with
    ⟨statements, hStatements, hTable⟩
  exact ⟨⟨text, statements, table, hText, hStatements, hTable⟩⟩

variable
    {bytes : ByteArray}
    (document : Document bytes)

/- What a document says. -/
def facts : Facts :=
  Toml.factsOf [] document.statements

theorem fits :
    document.table.Fits document.facts :=
  Toml.fits_of_statements? document.statements?_eq
    document.assemble_eq

theorem ofBytes?_eq :
    ofBytes? bytes = ofTable? document.table := by
  have hRead :
      Toml.read? document.text = some document.table := by
    unfold Toml.read?
    rw [document.statements?_eq]
    exact document.assemble_eq
  rw [ofBytes?, document.decode?_eq, Option.bind_some, hRead,
    Option.bind_some]

end Document

end Overlay

end LineShell

------------------------------------------------------------
-- Fields that are decided
------------------------------------------------------------

namespace LineShell

namespace Overlay

open Toml (Facts Table Value)

/- A field has the value that is given to it, if any. -/
structure Field.Decides
    (field : Field)
    (facts : Facts)
    (default value : Value) : Prop where
  given : ∀ found, field.Given facts found → value = found
  kept : (∀ found, ¬field.Given facts found) → value = default

variable
    {facts : Facts}
    {table : Table}
    (hFits : table.Fits facts)
    (hAll : ∀ field : Field, field.AcceptsAll facts)

include hFits hAll

/- What is read of a field decides it. -/
theorem decides_of_acceptsAll
    {α : Type}
    {read : Value → Option α}
    {write : α → Value}
    (hWrite :
      ∀ {value choice},
        read value = some choice ↔ value = write choice)
    (field : Field)
    (hRead : field.kind.IsReadBy read)
    (default : α) :
    field.Decides facts (write default)
      (write
        (((field.value? table).bind read).getD default)) := by
  have hGiven := value?_eq_some_iff hFits hAll field
  constructor
  · intro found hFound
    have hValue := (hGiven found).2 hFound
    have hSuits := (acceptsAll_iff_allSuit hFits).1 hAll
    rcases (hRead found).1
        (Field.accepts_of_value? hSuits hValue) with
      ⟨choice, hChoice⟩
    rw [hValue, Option.bind_some, hChoice, Option.getD_some]
    exact (hWrite.1 hChoice).symm
  · intro hNone
    cases hValue : field.value? table with
    | none => rfl
    | some value =>
        exact absurd ((hGiven value).1 hValue) (hNone value)

end Overlay

end LineShell

------------------------------------------------------------
-- Loading
------------------------------------------------------------

namespace LineShell

namespace Settings

open Overlay (Document Field)
open Toml (Facts)

/-
  Settings that some facts choose. A scalar is the one that
  is given, or else the standard one; and the names that are
  given are merged into the standard disabled ones.
-/
structure IsChosenBy
    (facts : Facts)
    (settings : Settings) : Prop where
  prompt :
    Field.prompt.Decides facts
      (.string standard.prompt) (.string settings.prompt)
  logLevel :
    Field.logLevel.Decides facts
      (.string standard.logLevel) (.string settings.logLevel)
  logFile :
    Field.logFile.Decides facts
      (.string standard.logFile) (.string settings.logFile)
  historyFile :
    Field.historyFile.Decides facts
      (.string standard.historyFile)
      (.string settings.historyFile)
  dateFormat :
    Field.dateFormat.Decides facts
      (.string standard.dateFormat)
      (.string settings.dateFormat)
  pageLines :
    Field.pageLines.Decides facts
      (.integer standard.pageLines)
      (.integer settings.pageLines)
  disabled :
    ∃ added removed replace,
      Field.disabled.Decides facts
          (.array []) (.array (added.map .string)) ∧
        Field.removeDisabled.Decides facts
          (.array []) (.array (removed.map .string)) ∧
        Field.replace.Decides facts
          (.boolean false) (.boolean replace) ∧
        settings.disabled =
          Overlay.mergeList standard.disabled added removed
            replace

/-
  Settings that come from the bytes of a file. Unless these
  are a document of which all that is said of any field is
  accepted, the settings are the standard ones.
-/
inductive IsLoadedFrom
    (bytes : ByteArray) :
    Settings → Prop where
  | notText
      (hText : Utf8.decode? bytes = none) :
      IsLoadedFrom bytes standard
  | notToml
      {text : String}
      (hText : Utf8.decode? bytes = some text)
      (hToml : Toml.read? text = none) :
      IsLoadedFrom bytes standard
  | spoiled
      (document : Document bytes)
      {field : Field}
      (hRefused : ¬field.AcceptsAll document.facts) :
      IsLoadedFrom bytes standard
  | chosen
      (document : Document bytes)
      (hAccepted :
        ∀ field : Field, field.AcceptsAll document.facts)
      {settings : Settings}
      (hChosen : settings.IsChosenBy document.facts) :
      IsLoadedFrom bytes settings

variable
    {bytes : ByteArray}
    (document : Document bytes)

/- One thing that is refused leaves the standard settings. -/
theorem load_of_not_acceptsAll
    {field : Field}
    (hRefused : ¬field.AcceptsAll document.facts) :
    load (some bytes) = standard := by
  rw [load, Option.bind_some, document.ofBytes?_eq,
    Overlay.ofTable?_of_not_acceptsAll document.fits hRefused]

/- If nothing is refused, the values of all fields apply. -/
theorem load_of_acceptsAll
    (hAccepted :
      ∀ field : Field, field.AcceptsAll document.facts) :
    load (some bytes) =
      (Overlay.ofValues fun field =>
        field.value? document.table).apply standard := by
  rw [load, Option.bind_some, document.ofBytes?_eq,
    Overlay.ofTable?_of_acceptsAll document.fits hAccepted]

/- The values of all fields choose the settings. -/
theorem isChosenBy_load
    (hAccepted :
      ∀ field : Field, field.AcceptsAll document.facts) :
    (load (some bytes)).IsChosenBy document.facts := by
  rw [load_of_acceptsAll document hAccepted]
  have hText :
      ∀ field : Field,
        field.kind = .text →
          ∀ default,
            field.Decides document.facts (.string default)
              (.string
                (((field.value? document.table).bind
                  Overlay.text?).getD default)) := by
    intro field hKind default
    refine Overlay.decides_of_acceptsAll document.fits
      hAccepted Overlay.text?_eq_some_iff field ?_ default
    rw [hKind]
    exact Overlay.Kind.isReadBy_text
  constructor
  · exact hText .prompt rfl _
  · exact hText .logLevel rfl _
  · exact hText .logFile rfl _
  · exact hText .historyFile rfl _
  · exact hText .dateFormat rfl _
  · exact Overlay.decides_of_acceptsAll document.fits
      hAccepted Overlay.count?_eq_some_iff .pageLines
      Overlay.Kind.isReadBy_count _
  · refine ⟨_, _, _, ?_, ?_, ?_, rfl⟩
    · exact Overlay.decides_of_acceptsAll document.fits
        hAccepted Overlay.texts?_eq_some_iff .disabled
        Overlay.Kind.isReadBy_texts []
    · exact Overlay.decides_of_acceptsAll document.fits
        hAccepted Overlay.texts?_eq_some_iff .removeDisabled
        Overlay.Kind.isReadBy_texts []
    · exact Overlay.decides_of_acceptsAll document.fits
        hAccepted Overlay.flag?_eq_some_iff .replace
        Overlay.Kind.isReadBy_flag false

/- Whatever is in a file, it is loaded in one of four ways. -/
theorem isLoadedFrom_load
    (bytes : ByteArray) :
    IsLoadedFrom bytes (load (some bytes)) := by
  cases hText : Utf8.decode? bytes with
  | none =>
      have hLoad : load (some bytes) = standard := by
        rw [load, Option.bind_some, Overlay.ofBytes?, hText,
          Option.bind_none, Option.bind_none]
      rw [hLoad]
      exact .notText hText
  | some text =>
      cases hRead : Toml.read? text with
      | none =>
          have hLoad : load (some bytes) = standard := by
            rw [load, Option.bind_some, Overlay.ofBytes?,
              hText, Option.bind_some, hRead,
              Option.bind_none]
          rw [hLoad]
          exact .notToml hText hRead
      | some table =>
          rcases Document.nonempty_of_read? hText hRead with
            ⟨document⟩
          by_cases hAccepted :
              ∀ field : Field,
                field.AcceptsAll document.facts
          · exact .chosen document hAccepted
              (isChosenBy_load document hAccepted)
          · rcases Classical.not_forall.1 hAccepted with
              ⟨field, hRefused⟩
            rw [load_of_not_acceptsAll document hRefused]
            exact .spoiled document hRefused

/-
  Two documents that say the same of what is known load as
  the same settings.
-/
theorem load_eq_of_agreesWith
    {others : ByteArray}
    (other : Document others)
    (hAgrees :
      document.facts.AgreesWith other.facts Overlay.known) :
    load (some others) = load (some bytes) := by
  by_cases hAccepted :
      ∀ field : Field, field.AcceptsAll document.facts
  · have hOther :
        ∀ field : Field, field.AcceptsAll other.facts :=
      fun field =>
        Field.acceptsAll_of_isCoveredBy hAgrees.covering
          (hAccepted field)
    rw [load_of_acceptsAll document hAccepted,
      load_of_acceptsAll other hOther]
    congr 2
    funext field
    apply Option.ext
    intro value
    rw [Overlay.value?_eq_some_iff document.fits hAccepted,
      Overlay.value?_eq_some_iff other.fits hOther]
    exact
      ⟨Field.given_of_isCoveredBy hAgrees.covering
          (hAccepted field),
        Field.given_of_isCoveredBy hAgrees.covered
          (hOther field)⟩
  · rcases Classical.not_forall.1 hAccepted with ⟨field, hRefused⟩
    have hOther : ¬field.AcceptsAll other.facts := by
      intro hField
      exact hRefused
        (Field.acceptsAll_of_isCoveredBy hAgrees.covered
          hField)
    rw [load_of_not_acceptsAll document hRefused,
      load_of_not_acceptsAll other hOther]

/-
  A file is loaded as a whole or not at all, and only what
  is known of its document counts. Other keys and tables may
  be added, removed and changed, and keys and sections may
  change places.
-/
structure LoadsWhole
    (bytes : ByteArray) : Prop where
  loaded : IsLoadedFrom bytes (load (some bytes))
  known :
    ∀ {others : ByteArray}
      (document : Document bytes)
      (other : Document others),
      document.facts.AgreesWith other.facts Overlay.known →
        load (some others) = load (some bytes)
  edited :
    ∀ {others : ByteArray}
      (document : Document bytes)
      (other : Document others),
      Toml.EditedOutside Overlay.known document.statements
          other.statements →
        load (some others) = load (some bytes)

/- Every file is loaded as a whole or not at all. -/
theorem load_is_whole
    (bytes : ByteArray) :
    LoadsWhole bytes where
  loaded := isLoadedFrom_load bytes
  known := by
    intro others document other hAgrees
    exact load_eq_of_agreesWith document other hAgrees
  edited := by
    intro others document other hEdited
    exact load_eq_of_agreesWith document other
      (hEdited.agreesWith Overlay.isStable_known)

/- A count below zero spoils the prompt of its file as well. -/
example :
    load (some
        "more.page_lines = 5\nsettings.prompt = '> '".toUTF8) =
        { standard with prompt := "> ", pageLines := 5 } ∧
      load (some
          "more.page_lines = -1\nsettings.prompt = '> '".toUTF8) =
        standard := by
  decide +kernel

end Settings

end LineShell

import LineShell.Proofs.Toml.Alike
import LineShell.Settings.Overlay

/-
  The fields that a file may choose. A table is read as an
  overlay exactly if what it says of every field is accepted
  by the field, and the overlay then has the values that are
  given to the fields.

  Key definitions include:
    * `Overlay.Kind.Accepts`
    * `Overlay.Field`
    * `Overlay.Field.Accepts`
    * `Overlay.Field.Given`
    * `Overlay.ofValues`

  Correctness is proven by:
    * `Overlay.ofTable?_eq_ofValues`
    * `Overlay.allSuit_of_ofTable?`
    * `Overlay.acceptsAll_iff_allSuit`
    * `Overlay.ofTable?_of_acceptsAll`
    * `Overlay.ofTable?_of_not_acceptsAll`
-/

------------------------------------------------------------
-- Kinds of values
------------------------------------------------------------

namespace LineShell

namespace Overlay

open Toml (Value Table)

/- The type of a field. -/
inductive Kind where
  | text
  | flag
  | count
  | texts

/- The values that fields of a kind may have. -/
def Kind.Accepts :
    Kind → Value → Prop
  | .text, value => ∃ text, value = .string text
  | .flag, value => ∃ flag, value = .boolean flag
  | .count, value => ∃ count : Nat, value = .integer count
  | .texts, value =>
    ∃ texts : List String, value = .array (texts.map .string)

/- A way of reading that takes what a kind accepts. -/
def Kind.IsReadBy
    {α : Type}
    (kind : Kind)
    (read : Value → Option α) : Prop :=
  ∀ value,
    kind.Accepts value ↔ ∃ choice, read value = some choice

theorem text?_eq_some_iff
    {value : Value}
    {text : String} :
    text? value = some text ↔ value = .string text := by
  cases value <;> simp [text?]

theorem flag?_eq_some_iff
    {value : Value}
    {flag : Bool} :
    flag? value = some flag ↔ value = .boolean flag := by
  cases value <;> simp [flag?]

theorem count?_eq_some_iff
    {value : Value}
    {count : Nat} :
    count? value = some count ↔ value = .integer count := by
  cases value with
  | integer integer =>
      simp only [count?, Value.integer.injEq]
      split
      case isTrue hPositive =>
        rw [Option.some_inj]
        omega
      case isFalse hNegative =>
        constructor
        · intro hCount
          cases hCount
        · intro hEq
          omega
  | _ => simp [count?]

theorem mapM_text?_eq_some_iff
    {items : List Value}
    {texts : List String} :
    items.mapM text? = some texts ↔
      items = texts.map .string := by
  induction items generalizing texts with
  | nil => cases texts <;> simp
  | cons item others ih =>
      rw [List.mapM_cons]
      constructor
      · intro hTexts
        rcases Option.bind_eq_some_iff.1 hTexts with
          ⟨text, hText, hAfter⟩
        rcases Option.bind_eq_some_iff.1 hAfter with
          ⟨rest, hRest, hEq⟩
        cases hEq
        rw [text?_eq_some_iff.1 hText, ih.1 hRest]
        rfl
      · intro hItems
        cases texts with
        | nil => cases hItems
        | cons text rest =>
            rcases List.cons.inj hItems with ⟨rfl, hOthers⟩
            rw [ih.2 hOthers]
            rfl

theorem texts?_eq_some_iff
    {value : Value}
    {texts : List String} :
    texts? value = some texts ↔
      value = .array (texts.map .string) := by
  cases value with
  | array items => simp [texts?, mapM_text?_eq_some_iff]
  | _ => simp [texts?]

namespace Kind

theorem isReadBy_text : text.IsReadBy text? := by
  intro value
  simp only [text?_eq_some_iff, Accepts]

theorem isReadBy_flag : flag.IsReadBy flag? := by
  intro value
  simp only [flag?_eq_some_iff, Accepts]

theorem isReadBy_count : count.IsReadBy count? := by
  intro value
  simp only [count?_eq_some_iff, Accepts]

theorem isReadBy_texts : texts.IsReadBy texts? := by
  intro value
  simp only [texts?_eq_some_iff, Accepts]

variable
    {kind : Kind}
    {value : Value}
    (hAccepts : kind.Accepts value)

include hAccepts

/- No kind accepts a table. -/
theorem ne_table_of_accepts
    (origin : Toml.Origin)
    (entries : Table) :
    value ≠ .table origin entries := by
  cases kind <;> rcases hAccepts with ⟨choice, rfl⟩ <;> simp

/- Nothing but itself is alike to what is accepted. -/
theorem eq_of_accepts_of_alike
    {other : Value}
    (hAlike : value.Alike other) :
    value = other := by
  cases kind with
  | text =>
      rcases hAccepts with ⟨text, rfl⟩
      cases hAlike
      rfl
  | flag =>
      rcases hAccepts with ⟨flag, rfl⟩
      cases hAlike
      rfl
  | count =>
      rcases hAccepts with ⟨count, rfl⟩
      cases hAlike
      rfl
  | texts =>
      rcases hAccepts with ⟨texts, rfl⟩
      cases hAlike with
      | same => rfl
      | @array _ others hLength hItems =>
          congr 1
          apply List.ext_getElem hLength
          intro position hItem hOther
          have hItemAlike :=
            hItems (List.getElem?_eq_getElem hItem)
              (List.getElem?_eq_getElem hOther)
          rw [List.getElem_map] at hItemAlike ⊢
          generalize others[position] = item at hItemAlike ⊢
          cases hItemAlike
          rfl

end Kind

end Overlay

end LineShell

------------------------------------------------------------
-- Fields
------------------------------------------------------------

namespace LineShell

namespace Overlay

open Toml (Content Facts Table Value)

/- What a user may choose. -/
inductive Field where
  | prompt
  | logLevel
  | logFile
  | historyFile
  | replace
  | disabled
  | removeDisabled
  | dateFormat
  | pageLines

namespace Field

/- The name of the section in which a field stands. -/
def header :
    Field → String
  | prompt => "settings"
  | logLevel => "settings"
  | logFile => "settings"
  | historyFile => "settings"
  | replace => "commands"
  | disabled => "commands"
  | removeDisabled => "commands"
  | dateFormat => "date"
  | pageLines => "more"

def key :
    Field → String
  | prompt => "prompt"
  | logLevel => "log_level"
  | logFile => "log_file"
  | historyFile => "history_file"
  | replace => "replace"
  | disabled => "disabled"
  | removeDisabled => "remove_disabled"
  | dateFormat => "format"
  | pageLines => "page_lines"

/- The place of a field in a section that is a list. -/
def position :
    Field → Nat
  | prompt => 0
  | logLevel => 1
  | logFile => 2
  | historyFile => 3
  | replace => 0
  | disabled => 1
  | removeDisabled => 2
  | dateFormat => 0
  | pageLines => 0

def kind :
    Field → Kind
  | prompt => .text
  | logLevel => .text
  | logFile => .text
  | historyFile => .text
  | replace => .flag
  | disabled => .texts
  | removeDisabled => .texts
  | dateFormat => .text
  | pageLines => .count

/- The fields that a section that is a list may lack. -/
def MayBeMissing
    (field : Field) : Prop :=
  field.header = "commands"

instance
    (field : Field) :
    Decidable field.MayBeMissing :=
  inferInstanceAs (Decidable (field.header = "commands"))

/-
  What may be said in the section of a field, with paths
  from there: the section is a table, a date, which stands
  for an empty one, or a list; the key of the field has an
  accepted value; and other keys are as they like.
-/
inductive Accepts
    (field : Field) :
    List String → Content → Prop where
  | table : Accepts field [] .table
  | date : Accepts field [] (.value .dateTime)
  | list
      {items : List Value}
      (hItem :
        ∀ value,
          items[field.position]? = some value →
            field.kind.Accepts value)
      (hMissing :
        items[field.position]? = none → field.MayBeMissing) :
      Accepts field [] (.value (.array items))
  | value
      {value : Value}
      (hValue : field.kind.Accepts value) :
      Accepts field [field.key] (.value value)
  | other
      {key : String}
      {path : List String}
      {content : Content}
      (hOther : key ≠ field.key) :
      Accepts field (key :: path) content

/- All that is said in the section of a field is accepted. -/
def AcceptsAll
    (field : Field)
    (facts : Facts) : Prop :=
  ∀ path content,
    facts (field.header :: path) content →
      field.Accepts path content

/- A value that is given to a field, by key or in a list. -/
inductive Given
    (facts : Facts)
    (field : Field) :
    Value → Prop where
  | keyed
      {value : Value}
      (hFact :
        facts [field.header, field.key] (.value value)) :
      Given facts field value
  | listed
      {items : List Value}
      {value : Value}
      (hFact : facts [field.header] (.value (.array items)))
      (hItem : items[field.position]? = some value) :
      Given facts field value

/- The value of a field in the table of a document. -/
def value?
    (field : Field)
    (table : Table) : Option Value :=
  (Section.of? field.header table).bind
    (·.value? field.position field.key)

/- A section in which a field can be read. -/
structure Suits
    (field : Field)
    (fields : Section) : Prop where
  accepted :
    ∀ value,
      fields.value? field.position field.key = some value →
        field.kind.Accepts value
  missing :
    fields.value? field.position field.key = none →
      (∃ entries, fields = .keyed entries) ∨
        field.MayBeMissing

end Field

end Overlay

end LineShell

------------------------------------------------------------
-- Reading fields
------------------------------------------------------------

namespace LineShell

namespace Overlay

open Toml (Table Value)

/- The overlay that has given values. -/
def ofValues
    (value? : Field → Option Value) : Overlay where
  prompt := (value? .prompt).bind text?
  logLevel := (value? .logLevel).bind text?
  logFile := (value? .logFile).bind text?
  historyFile := (value? .historyFile).bind text?
  replace := ((value? .replace).bind flag?).getD false
  disabled := ((value? .disabled).bind texts?).getD []
  removeDisabled :=
    ((value? .removeDisabled).bind texts?).getD []
  dateFormat := (value? .dateFormat).bind text?
  pageLines := (value? .pageLines).bind count?

namespace Field

variable
    {α : Type}
    {field : Field}
    {fields : Section}
    {read : Value → Option α}
    (hRead : field.kind.IsReadBy read)

include hRead

/- A field that suits is read as its value says. -/
theorem optional?_of_suits
    (hSuits : field.Suits fields)
    (hNeeded : ¬field.MayBeMissing) :
    fields.optional? field.position field.key read =
      some ((fields.value? field.position field.key).bind
        read) := by
  unfold Section.optional?
  cases hValue :
      fields.value? field.position field.key with
  | none =>
      rcases hSuits.missing hValue with
        ⟨entries, rfl⟩ | hMissing
      · rfl
      · exact absurd hMissing hNeeded
  | some value =>
      rcases (hRead value).1 (hSuits.accepted value hValue)
        with ⟨choice, hChoice⟩
      simp [hChoice]

theorem withDefault?_of_suits
    (hSuits : field.Suits fields)
    (default : α) :
    fields.withDefault? field.position field.key read
        default =
      some (((fields.value? field.position field.key).bind
        read).getD default) := by
  unfold Section.withDefault?
  cases hValue :
      fields.value? field.position field.key with
  | none => rfl
  | some value =>
      rcases (hRead value).1 (hSuits.accepted value hValue)
        with ⟨choice, hChoice⟩
      simp [hChoice]

/- A field that is read suits. -/
theorem suits_of_optional?
    {choice : Option α}
    (hChoice :
      fields.optional? field.position field.key read =
        some choice) :
    field.Suits fields := by
  unfold Section.optional? at hChoice
  split at hChoice
  case h_1 value hValue =>
    rcases Option.map_eq_some_iff.1 hChoice with
      ⟨found, hFound, hEq⟩
    constructor
    · intro other hOther
      rw [hValue] at hOther
      cases hOther
      exact (hRead value).2 ⟨found, hFound⟩
    · intro hNone
      rw [hValue] at hNone
      cases hNone
  case h_2 entries hNone =>
    constructor
    · intro other hOther
      rw [hNone] at hOther
      cases hOther
    · intro _
      exact .inl ⟨entries, rfl⟩
  case h_3 => cases hChoice

theorem suits_of_withDefault?
    {default choice : α}
    (hChoice :
      fields.withDefault? field.position field.key read
          default =
        some choice)
    (hMissing : field.MayBeMissing) :
    field.Suits fields := by
  unfold Section.withDefault? at hChoice
  refine ⟨?_, fun _ => .inr hMissing⟩
  intro value hValue
  rw [hValue] at hChoice
  exact (hRead value).2 ⟨choice, hChoice⟩

end Field

/- The sections of a table are there, and every field suits. -/
def AllSuit
    (table : Table) : Prop :=
  ∀ field : Field,
    ∃ fields,
      Section.of? field.header table = some fields ∧
        field.Suits fields

namespace Field

variable
    {α : Type}
    {table : Table}
    (hSuits : AllSuit table)
    (field : Field)
    {fields : Section}
    (hFields : Section.of? field.header table = some fields)
    {read : Value → Option α}
    (hRead : field.kind.IsReadBy read)

include hFields in
theorem value?_of_section :
    field.value? table =
      fields.value? field.position field.key := by
  rw [value?, hFields, Option.bind_some]

include hSuits hFields

theorem suits_of_allSuit :
    field.Suits fields := by
  rcases hSuits field with ⟨found, hFound, hField⟩
  rw [hFields] at hFound
  cases hFound
  exact hField

omit hFields in
/- The value of a field that suits is accepted. -/
theorem accepts_of_value?
    {field : Field}
    {value : Value}
    (hValue : field.value? table = some value) :
    field.kind.Accepts value := by
  rcases hSuits field with ⟨fields, hFields, hField⟩
  rw [field.value?_of_section hFields] at hValue
  exact hField.accepted value hValue

include hRead

theorem optional?_of_allSuit
    (hNeeded : ¬field.MayBeMissing) :
    fields.optional? field.position field.key read =
      some ((field.value? table).bind read) := by
  rw [optional?_of_suits hRead
      (field.suits_of_allSuit hSuits hFields) hNeeded,
    field.value?_of_section hFields]

theorem withDefault?_of_allSuit
    (default : α) :
    fields.withDefault? field.position field.key read
        default =
      some (((field.value? table).bind read).getD
        default) := by
  rw [withDefault?_of_suits hRead
      (field.suits_of_allSuit hSuits hFields),
    field.value?_of_section hFields]

end Field

/- If every field suits, an overlay has their values. -/
theorem ofTable?_eq_ofValues
    {table : Table}
    (hSuits : AllSuit table) :
    ofTable? table =
      some (ofValues fun field => field.value? table) := by
  have hSection :
      ∀ field : Field,
        ∃ fields, Section.of? field.header table = some fields :=
    fun field => (hSuits field).imp fun _ hField => hField.1
  rcases hSection .prompt with ⟨settings, hSettings⟩
  rcases hSection .replace with ⟨commands, hCommands⟩
  rcases hSection .dateFormat with ⟨date, hDate⟩
  rcases hSection .pageLines with ⟨more, hMore⟩
  have hText :
      ∀ field : Field,
        field.kind = .text →
          ∀ {fields : Section},
            Section.of? field.header table = some fields →
              fields.optional? field.position field.key
                  text? =
                some ((field.value? table).bind text?) := by
    intro field hKind fields hFields
    refine field.optional?_of_allSuit hSuits hFields ?_ ?_
    · rw [hKind]
      exact Kind.isReadBy_text
    · cases field <;> first | decide | cases hKind
  have hPrompt := hText .prompt rfl hSettings
  have hLogLevel := hText .logLevel rfl hSettings
  have hLogFile := hText .logFile rfl hSettings
  have hHistoryFile := hText .historyFile rfl hSettings
  have hReplace :=
    Field.replace.withDefault?_of_allSuit hSuits hCommands
      Kind.isReadBy_flag false
  have hDisabled :=
    Field.disabled.withDefault?_of_allSuit hSuits hCommands
      Kind.isReadBy_texts []
  have hRemoved :=
    Field.removeDisabled.withDefault?_of_allSuit hSuits
      hCommands Kind.isReadBy_texts []
  have hFormat := hText .dateFormat rfl hDate
  have hLines :=
    Field.pageLines.optional?_of_allSuit hSuits hMore
      Kind.isReadBy_count (by decide)
  simp only [Field.header, Field.position, Field.key] at *
  simp only [ofTable?, hSettings, hCommands, hDate, hMore,
    hPrompt, hLogLevel, hLogFile, hHistoryFile, hReplace,
    hDisabled, hRemoved, hFormat, hLines, ofValues,
    Option.bind_eq_bind, Option.bind_some]

/- If there is an overlay, every field suits. -/
theorem allSuit_of_ofTable?
    {table : Table}
    {overlay : Overlay}
    (hOverlay : ofTable? table = some overlay) :
    AllSuit table := by
  unfold ofTable? at hOverlay
  rcases Option.bind_eq_some_iff.1 hOverlay with
    ⟨settings, hSettings, hAfterSettings⟩
  rcases Option.bind_eq_some_iff.1 hAfterSettings with
    ⟨commands, hCommands, hAfterCommands⟩
  rcases Option.bind_eq_some_iff.1 hAfterCommands with
    ⟨date, hDate, hAfterDate⟩
  rcases Option.bind_eq_some_iff.1 hAfterDate with
    ⟨more, hMore, hAfterMore⟩
  rcases Option.bind_eq_some_iff.1 hAfterMore with
    ⟨prompt, hPrompt, hAfterPrompt⟩
  rcases Option.bind_eq_some_iff.1 hAfterPrompt with
    ⟨logLevel, hLogLevel, hAfterLogLevel⟩
  rcases Option.bind_eq_some_iff.1 hAfterLogLevel with
    ⟨logFile, hLogFile, hAfterLogFile⟩
  rcases Option.bind_eq_some_iff.1 hAfterLogFile with
    ⟨historyFile, hHistoryFile, hAfterHistoryFile⟩
  rcases Option.bind_eq_some_iff.1 hAfterHistoryFile with
    ⟨replace, hReplace, hAfterReplace⟩
  rcases Option.bind_eq_some_iff.1 hAfterReplace with
    ⟨disabled, hDisabled, hAfterDisabled⟩
  rcases Option.bind_eq_some_iff.1 hAfterDisabled with
    ⟨removed, hRemoved, hAfterRemoved⟩
  rcases Option.bind_eq_some_iff.1 hAfterRemoved with
    ⟨dateFormat, hFormat, hAfterFormat⟩
  rcases Option.bind_eq_some_iff.1 hAfterFormat with
    ⟨pageLines, hLines, hEq⟩
  intro field
  cases field with
  | prompt =>
      exact ⟨settings, hSettings,
        Field.suits_of_optional? Kind.isReadBy_text hPrompt⟩
  | logLevel =>
      exact ⟨settings, hSettings,
        Field.suits_of_optional? Kind.isReadBy_text
          hLogLevel⟩
  | logFile =>
      exact ⟨settings, hSettings,
        Field.suits_of_optional? Kind.isReadBy_text hLogFile⟩
  | historyFile =>
      exact ⟨settings, hSettings,
        Field.suits_of_optional? Kind.isReadBy_text
          hHistoryFile⟩
  | replace =>
      exact ⟨commands, hCommands,
        Field.suits_of_withDefault? Kind.isReadBy_flag
          hReplace rfl⟩
  | disabled =>
      exact ⟨commands, hCommands,
        Field.suits_of_withDefault? Kind.isReadBy_texts
          hDisabled rfl⟩
  | removeDisabled =>
      exact ⟨commands, hCommands,
        Field.suits_of_withDefault? Kind.isReadBy_texts
          hRemoved rfl⟩
  | dateFormat =>
      exact ⟨date, hDate,
        Field.suits_of_optional? Kind.isReadBy_text hFormat⟩
  | pageLines =>
      exact ⟨more, hMore,
        Field.suits_of_optional? Kind.isReadBy_count hLines⟩

end Overlay

end LineShell

------------------------------------------------------------
-- What is said of fields
------------------------------------------------------------

namespace LineShell

namespace Overlay

open Toml (Content Facts Shows Table Value)

namespace Field

/-
  What is said at the key of a field is as good as the value
  there.
-/
structure IsTold
    (field : Field)
    (facts : Facts)
    (value? : Option Value) : Prop where
  accepts_iff :
    (∀ path content,
        facts path content →
          field.Accepts (field.key :: path) content) ↔
      ∀ value,
        value? = some value → field.kind.Accepts value
  given_iff :
    (∀ value,
        value? = some value → field.kind.Accepts value) →
      ∀ value,
        value? = some value ↔ facts [] (.value value)

variable
    {field : Field}
    {facts : Facts}

/- At the key of a field nothing but its kind is accepted. -/
theorem accepts_key_iff
    {path : List String}
    {content : Content} :
    field.Accepts (field.key :: path) content ↔
      path = [] ∧
        ∃ value,
          content = .value value ∧
            field.kind.Accepts value := by
  constructor
  · intro hAccepts
    cases hAccepts with
    | value hValue => exact ⟨rfl, _, rfl, hValue⟩
    | other hOther => exact absurd rfl hOther
  · rintro ⟨rfl, value, rfl, hValue⟩
    exact .value hValue

theorem isTold_nothing
    (hNothing : ∀ path content, ¬facts path content) :
    field.IsTold facts none where
  accepts_iff := by
    constructor
    · intro _ value hValue
      cases hValue
    · intro _ path content hFact
      exact absurd hFact (hNothing path content)
  given_iff := by
    intro _ value
    constructor
    · intro hValue
      cases hValue
    · intro hFact
      exact absurd hFact (hNothing [] _)

/- Something that is no accepted value is not accepted. -/
theorem isTold_refused
    {value : Value}
    (hValue : ¬field.kind.Accepts value)
    (hFact :
      ∃ path content,
        facts path content ∧
          ¬field.Accepts (field.key :: path) content) :
    field.IsTold facts (some value) where
  accepts_iff := by
    rcases hFact with ⟨path, content, hFact, hRefused⟩
    constructor
    · intro hAll
      exact absurd (hAll path content hFact) hRefused
    · intro hAll
      exact absurd (hAll value rfl) hValue
  given_iff := by
    intro hAll
    exact absurd (hAll value rfl) hValue

theorem isTold_of_value
    {value : Value}
    (hSays :
      ∀ path content,
        facts path content ↔ value.Says path content) :
    field.IsTold facts (some value) := by
  by_cases hValue : field.kind.Accepts value
  · have hLeaf := Kind.ne_table_of_accepts hValue
    constructor
    · constructor
      · rintro _ _ ⟨rfl⟩
        exact hValue
      · intro _ path content hFact
        rcases (Toml.says_iff_of_leaf hLeaf).1
            ((hSays path content).1 hFact) with ⟨rfl, rfl⟩
        exact .value hValue
    · intro _ other
      rw [hSays, Toml.says_iff_of_leaf hLeaf]
      simp [eq_comm]
  · apply isTold_refused hValue
    rcases Toml.says_something value with
      ⟨path, content, hContent⟩
    refine
      ⟨path, content, (hSays path content).2 hContent, ?_⟩
    rw [accepts_key_iff]
    rintro ⟨rfl, other, rfl, hOther⟩
    cases hContent
    exact hValue hOther

/- What shows in a value is what the value tells a field. -/
theorem isTold_of_shows
    {value? : Option Value}
    (hShows : Shows facts value?) :
    field.IsTold facts value? := by
  cases hShows with
  | nothing hNothing => exact isTold_nothing hNothing
  | value _ hSays => exact isTold_of_value hSays
  | rows last before hRow =>
      apply isTold_refused
      · cases hKind : field.kind <;> simp [Kind.Accepts]
      · refine ⟨[], .row, hRow, ?_⟩
        rw [accepts_key_iff]
        rintro ⟨_, value, hValue, _⟩
        cases hValue
  | table _ hHere hSome _ =>
      apply isTold_refused
      · intro hValue
        exact Kind.ne_table_of_accepts hValue _ _ rfl
      · rcases hSome with ⟨path, content, hFact⟩
        refine ⟨path, content, hFact, ?_⟩
        rw [accepts_key_iff]
        rintro ⟨rfl, value, rfl, _⟩
        cases hHere _ hFact

end Field

end Overlay

end LineShell

------------------------------------------------------------
-- What is said of sections
------------------------------------------------------------

namespace LineShell

namespace Overlay

open Toml (Content Facts Shows Table Value)

namespace Field

/-
  A section of which facts say whether a field suits and
  what is given to it.
-/
structure IsToldIn
    (field : Field)
    (facts : Facts)
    (fields : Section) : Prop where
  accepts_iff :
    field.AcceptsAll facts ↔ field.Suits fields
  given_iff :
    field.AcceptsAll facts →
      ∀ value,
        fields.value? field.position field.key =
            some value ↔
          field.Given facts value

variable
    {field : Field}
    {facts : Facts}

/- A section with keys tells what is said at the key. -/
theorem isToldIn_keyed
    {entries : Table}
    (hHere :
      ∀ content,
        facts [field.header] content →
          content = .table ∨ content = .value .dateTime)
    (hKey :
      field.IsTold
        ((facts.below field.header).below field.key)
        (Toml.lookUp field.key entries)) :
    field.IsToldIn facts (.keyed entries) := by
  have hAccepts :
      field.AcceptsAll facts ↔
        ∀ value,
          Toml.lookUp field.key entries = some value →
            field.kind.Accepts value := by
    rw [← hKey.accepts_iff]
    constructor
    · intro hAll path content hFact
      exact hAll (field.key :: path) content hFact
    · intro hAll path content hFact
      cases path with
      | nil =>
          rcases hHere content hFact with rfl | rfl
          · exact .table
          · exact .date
      | cons key path =>
          by_cases hField : key = field.key
          · subst hField
            exact hAll path content hFact
          · exact .other hField
  constructor
  · rw [hAccepts]
    exact ⟨fun hAll => ⟨hAll, fun _ => .inl ⟨entries, rfl⟩⟩,
      fun hSuits => hSuits.accepted⟩
  · intro hAll value
    have hValue := hKey.given_iff (hAccepts.1 hAll) value
    constructor
    · intro hLook
      exact .keyed (hValue.1 hLook)
    · intro hGiven
      cases hGiven with
      | keyed hFact => exact hValue.2 hFact
      | listed hFact =>
          rcases hHere _ hFact with hEq | hEq <;> cases hEq

/- A section that is a list tells what its items are. -/
theorem isToldIn_listed
    {items : List Value}
    (hSays :
      ∀ path content,
        facts (field.header :: path) content ↔
          path = [] ∧ content = .value (.array items)) :
    field.IsToldIn facts (.listed items) where
  accepts_iff := by
    constructor
    · intro hAll
      have hHere := hAll [] _ ((hSays [] _).2 ⟨rfl, rfl⟩)
      cases hHere with
      | list hItem hMissing =>
          exact ⟨hItem, fun hNone => .inr (hMissing hNone)⟩
    · intro hSuits path content hFact
      rcases (hSays path content).1 hFact with ⟨rfl, rfl⟩
      refine .list hSuits.accepted ?_
      intro hNone
      rcases hSuits.missing hNone with
        ⟨entries, hKeyed⟩ | hMissing
      · cases hKeyed
      · exact hMissing
  given_iff := by
    intro _ value
    constructor
    · intro hItem
      exact .listed ((hSays [] _).2 ⟨rfl, rfl⟩) hItem
    · intro hGiven
      cases hGiven with
      | keyed hFact =>
          cases ((hSays [field.key] _).1 hFact).1
      | listed hFact hItem =>
          cases ((hSays [] _).1 hFact).2
          exact hItem

/- The entries of a table in braces are told by its value. -/
theorem isTold_of_lookUp
    {origin : Toml.Origin}
    {entries : Table}
    (hSays :
      ∀ path content,
        facts (field.header :: path) content ↔
          Value.Says (.table origin entries) path content) :
    field.IsTold
      ((facts.below field.header).below field.key)
      (Toml.lookUp field.key entries) := by
  have hBelow :
      facts.below field.header =
        Value.Says (.table origin entries) := by
    funext path content
    exact propext (hSays path content)
  rw [hBelow]
  cases hLook : Toml.lookUp field.key entries with
  | none =>
      exact isTold_nothing fun _ _ =>
        Toml.not_says_of_lookUp hLook
  | some value =>
      rw [Toml.says_below hLook]
      exact isTold_of_value fun _ _ => Iff.rfl

/-
  A section is read and tells what is said of a field, or it
  is no section and something that is said is not accepted,
  or it is a row of tables.
-/
inductive IsToldBy
    (field : Field)
    (facts : Facts)
    (table : Table) : Prop where
  | read
      {fields : Section}
      (hFields :
        Section.of? field.header table = some fields)
      (hTold : field.IsToldIn facts fields)
  | refused
      (hFields : Section.of? field.header table = none)
      (hAccepts : ¬field.AcceptsAll facts)
  | rows
      {last : Table}
      {before : List Table}
      (hLook :
        Toml.lookUp field.header table =
          some (.tables (last :: before)))
      (hAccepts : ¬field.AcceptsAll facts)

/- A value that is no section is not accepted as one. -/
theorem isToldBy_of_value
    {table : Table}
    (hFields : Section.of? field.header table = none)
    {value : Value}
    (hFact : facts [field.header] (.value value))
    (hDate : value ≠ .dateTime)
    (hArray : ∀ items, value ≠ .array items) :
    field.IsToldBy facts table := by
  refine .refused hFields ?_
  intro hAll
  cases hAll [] _ hFact with
  | date => exact hDate rfl
  | list => exact hArray _ rfl

/- What is written as a section tells what it says. -/
theorem isToldBy_of_closed
    {table : Table}
    {value : Value}
    (hLook :
      Toml.lookUp field.header table = some value)
    (hClosed : value.IsClosed)
    (hSays :
      ∀ path content,
        facts (field.header :: path) content ↔
          value.Says path content) :
    field.IsToldBy facts table := by
  cases value with
  | tables => exact hClosed.elim
  | table origin entries =>
      refine .read (by rw [Section.of?, hLook]) ?_
      refine isToldIn_keyed ?_ (isTold_of_lookUp hSays)
      intro content hFact
      cases (hSays [] content).1 hFact with
      | leaf hLeaf => exact absurd rfl (hLeaf _ _)
      | table => exact .inl rfl
  | array items =>
      refine .read (by rw [Section.of?, hLook]) ?_
      apply isToldIn_listed
      intro path content
      exact (hSays path content).trans
        (Toml.says_iff_of_leaf (by simp))
  | dateTime =>
      have hDate :
          ∀ path content,
            facts (field.header :: path) content ↔
              path = [] ∧ content = .value .dateTime :=
        fun path content =>
          (hSays path content).trans
            (Toml.says_iff_of_leaf (by simp))
      refine .read (by rw [Section.of?, hLook]) ?_
      refine isToldIn_keyed ?_ (isTold_nothing ?_)
      · intro content hFact
        exact .inr ((hDate [] content).1 hFact).2
      · intro path content hFact
        cases ((hDate _ _).1 hFact).1
  | string | integer | fraction | boolean =>
      exact isToldBy_of_value
        (by rw [Section.of?, hLook])
        ((hSays [] _).2 (.leaf (by simp)))
        (by simp) (by simp)

/- A table that fits facts tells what they say of a field. -/
theorem isToldBy_of_fits
    {table : Table}
    (hFits : table.Fits facts)
    (field : Field) :
    field.IsToldBy facts table := by
  have hShows := hFits field.header
  generalize hLook :
    Toml.lookUp field.header table = found at hShows
  cases hShows with
  | value hClosed hSays =>
      exact isToldBy_of_closed hLook hClosed hSays
  | nothing hNothing =>
      refine .read (by rw [Section.of?, hLook]) ?_
      refine @isToldIn_keyed _ _ [] ?_ (isTold_nothing ?_)
      · intro content hFact
        exact absurd hFact (hNothing [] content)
      · intro path content
        exact hNothing (field.key :: path) content
  | rows last before hRow =>
      refine .rows hLook ?_
      intro hAll
      cases hAll [] .row hRow
  | table hOpen hHere hSome hBelow =>
      refine .read (by rw [Section.of?, hLook]) ?_
      refine isToldIn_keyed ?_
        (isTold_of_shows (hBelow field.key))
      intro content hFact
      exact .inl (hHere content hFact)

/- Every section has a first field. -/
theorem exists_first
    (field : Field) :
    ∃ first : Field,
      first.header = field.header ∧ first.position = 0 := by
  cases field with
  | prompt => exact ⟨prompt, rfl, rfl⟩
  | logLevel => exact ⟨prompt, rfl, rfl⟩
  | logFile => exact ⟨prompt, rfl, rfl⟩
  | historyFile => exact ⟨prompt, rfl, rfl⟩
  | replace => exact ⟨replace, rfl, rfl⟩
  | disabled => exact ⟨replace, rfl, rfl⟩
  | removeDisabled => exact ⟨replace, rfl, rfl⟩
  | dateFormat => exact ⟨dateFormat, rfl, rfl⟩
  | pageLines => exact ⟨pageLines, rfl, rfl⟩

/- The first table of a row stands where no table may be. -/
theorem not_allSuit_of_rows
    {table last : Table}
    {before : List Table}
    (hLook :
      Toml.lookUp field.header table =
        some (.tables (last :: before))) :
    ¬AllSuit table := by
  intro hSuits
  rcases field.exists_first with
    ⟨first, hHeader, hPosition⟩
  rcases hSuits first with ⟨fields, hFields, hFirst⟩
  rw [Section.of?, hHeader, hLook] at hFields
  cases hFields
  have hItem :
      ∃ row,
        ((last :: before).reverse.map
            (Value.table .header))[first.position]? =
          some (.table .header row) := by
    rw [hPosition, List.getElem?_map,
      ← List.head?_eq_getElem?, List.head?_reverse,
      List.getLast?_cons]
    exact ⟨_, rfl⟩
  rcases hItem with ⟨row, hRow⟩
  exact Kind.ne_table_of_accepts
    (hFirst.accepted _ hRow) _ _ rfl

end Field

variable
    {facts : Facts}
    {table : Table}
    (hFits : table.Fits facts)

include hFits

/-
  What is said of all fields is accepted exactly if all
  fields suit.
-/
theorem acceptsAll_iff_allSuit :
    (∀ field : Field, field.AcceptsAll facts) ↔
      AllSuit table := by
  constructor
  · intro hAll field
    cases Field.isToldBy_of_fits hFits field with
    | read hFields hTold =>
        exact ⟨_, hFields, hTold.accepts_iff.1 (hAll field)⟩
    | refused _ hAccepts => exact absurd (hAll field) hAccepts
    | rows _ hAccepts => exact absurd (hAll field) hAccepts
  · intro hSuits field
    cases Field.isToldBy_of_fits hFits field with
    | read hFields hTold =>
        exact hTold.accepts_iff.2
          (field.suits_of_allSuit hSuits hFields)
    | refused hFields =>
        rcases hSuits field with ⟨fields, hFound, _⟩
        rw [hFields] at hFound
        cases hFound
    | rows hLook =>
        exact absurd hSuits (Field.not_allSuit_of_rows hLook)

/- A field has the value that is given to it. -/
theorem value?_eq_some_iff
    (hAll : ∀ field : Field, field.AcceptsAll facts)
    (field : Field)
    (value : Value) :
    field.value? table = some value ↔
      field.Given facts value := by
  cases Field.isToldBy_of_fits hFits field with
  | read hFields hTold =>
      rw [field.value?_of_section hFields]
      exact hTold.given_iff (hAll field) value
  | refused _ hAccepts => exact absurd (hAll field) hAccepts
  | rows _ hAccepts => exact absurd (hAll field) hAccepts

/- An overlay has what is given if all that is said suits. -/
theorem ofTable?_of_acceptsAll
    (hAll : ∀ field : Field, field.AcceptsAll facts) :
    ofTable? table =
      some (ofValues fun field => field.value? table) :=
  ofTable?_eq_ofValues ((acceptsAll_iff_allSuit hFits).1 hAll)

/- One thing that is not accepted spoils the whole. -/
theorem ofTable?_of_not_acceptsAll
    {field : Field}
    (hField : ¬field.AcceptsAll facts) :
    ofTable? table = none := by
  rw [Option.eq_none_iff_forall_ne_some]
  intro overlay hOverlay
  have hSuits := allSuit_of_ofTable? hOverlay
  exact hField ((acceptsAll_iff_allSuit hFits).2 hSuits field)

end Overlay

end LineShell

import LineShell.Command.Navigation
import LineShell.Proofs.FileSystem.Names
import LineShell.Proofs.FileSystem.Nodes
import LineShell.Proofs.Text.Order

/-
  What `ls` shows of a directory. Every entry has one item,
  its name with a slash behind it where it is a directory
  itself, and the items are in the order of their bytes: the
  text follows from the entries alone, whatever their order
  and whichever way the directory is named. A name that is
  not UTF-8 is shown with replacements.

  Key definitions include:
    * `Navigation.itemOf`
    * `Call.ListsAt`
    * `FileSystem.HoldsEntries`
    * `Answer.IsListing`

  Correctness is proven by:
    * `FileSystem.nodup_children`
    * `Navigation.listing_perm`
    * `Navigation.ascending_listing`
    * `Answer.IsListing.items_eq`
    * `Navigation.ls_lists_entries`
-/

------------------------------------------------------------
-- Entries of a directory
------------------------------------------------------------

namespace LineShell

namespace FileSystem

variable
    {files : FileSystem}
    {place : Location}

/- The entries of a directory are those that lie in it. -/
theorem mem_children_iff_get?
    {name : Name}
    {node : Node} :
    (name, node) ∈ files.children place ↔
      files.get? (name :: place) = some node := by
  rw [mem_children_iff, get?_eq_some_iff (by simp)]

/- No two entries of a directory have the same name. -/
theorem nodup_children :
    ((files.children place).map Prod.fst).Nodup := by
  have hRows : files.entries.Pairwise (·.1 ≠ ·.1) := by
    rw [← List.pairwise_map]
    exact files.sound.nodup
  rw [List.nodup_iff_pairwise_ne, List.pairwise_map]
  unfold children
  refine hRows.filterMap _ ?_
  rintro ⟨first, firstNode⟩ ⟨second, secondNode⟩ hApart
    ⟨name, node⟩ hFirst ⟨other, old⟩ hSecond hSame
  -- Entries in one directory that share a name are one row.
  cases first with
  | nil => cases hFirst
  | cons firstName holder =>
      cases second with
      | nil => cases hSecond
      | cons secondName otherHolder =>
          simp only [Option.ite_none_right_eq_some,
            Option.some.injEq, Prod.mk.injEq]
            at hFirst hSecond
          rcases hFirst with ⟨rfl, rfl, rfl⟩
          rcases hSecond with ⟨rfl, rfl, rfl⟩
          dsimp only at hSame
          rw [hSame] at hApart
          exact hApart rfl

end FileSystem

end LineShell

------------------------------------------------------------
-- Items
------------------------------------------------------------

namespace LineShell

namespace Navigation

/-
  The item of an entry: what is shown of its name, and a
  slash if the entry is a directory and not only leads to
  one.
-/
def itemOf
    (name : Name)
    (node : Node) : String :=
  name.raw.shown ++ (if node = .directory then "/" else "")

theorem listed_eq_itemOf
    (entry : Name × Node) :
    listed entry = itemOf entry.1 entry.2 := by
  rcases entry with ⟨name, node⟩
  cases node <;> simp [listed, itemOf, Node.isDirectory]

/- A name that is a text is itself in its item. -/
theorem bytes_itemOf
    {name : Name}
    (hText : name.raw.IsText)
    (node : Node) :
    Utf8.bytes (itemOf name node) =
      name.raw.bytes ++
        (if node = .directory then [slashByte] else []) := by
  have hShown :
      Utf8.bytes name.raw.shown = name.raw.bytes :=
    congrArg RawText.bytes hText.ofText_shown
  rw [itemOf, Utf8.bytes_append, hShown]
  split <;> rfl

/- A name holds no slash, so bytes with one behind it tell it. -/
theorem eq_of_bytes_append_eq
    {name other : Name}
    {node old : Node}
    (hSame :
      name.raw.bytes ++
          (if node = .directory then [slashByte] else []) =
        other.raw.bytes ++
          (if old = .directory then [slashByte] else [])) :
    name = other := by
  have hNoSlash :
      ∀ first second : Name,
        first.raw.bytes ≠ second.raw.bytes ++ [slashByte] := by
    intro first second hBytes
    have hSlash : slashByte ∉ first.raw.bytes :=
      first.isName.2.2.2.2.1
    rw [hBytes] at hSlash
    exact hSlash (by simp)
  have hBytes : name.raw.bytes = other.raw.bytes := by
    split at hSame
    case isTrue =>
      split at hSame
      case isTrue => exact List.append_cancel_right hSame
      case isFalse =>
        rw [List.append_nil] at hSame
        exact absurd hSame.symm (hNoSlash other name)
    case isFalse =>
      rw [List.append_nil] at hSame
      split at hSame
      case isTrue => exact absurd hSame (hNoSlash name other)
      case isFalse => rwa [List.append_nil] at hSame
  rcases name with ⟨⟨bytes⟩, hIs⟩
  rcases other with ⟨⟨otherBytes⟩, hOther⟩
  cases hBytes
  rfl

/- The items of texts tell them apart. -/
theorem eq_of_itemOf_eq
    {name other : Name}
    {node old : Node}
    (hText : name.raw.IsText)
    (hOther : other.raw.IsText)
    (hSame : itemOf name node = itemOf other old) :
    name = other := by
  have hBytes := congrArg Utf8.bytes hSame
  rw [bytes_itemOf hText, bytes_itemOf hOther] at hBytes
  exact eq_of_bytes_append_eq hBytes

/- The items of a listing are those of its entries. -/
theorem listing_perm
    (entries : List (Name × Node)) :
    (listing entries).Perm
      (entries.map fun entry => itemOf entry.1 entry.2) := by
  unfold listing
  rw [funext listed_eq_itemOf]
  exact List.mergeSort_perm _ _

/- A listing is in the order of bytes. -/
theorem ascending_listing
    (entries : List (Name × Node)) :
    (listing entries).Pairwise fun first second =>
      Utf8.bytes first ≤ Utf8.bytes second := by
  have hSorted :
      (listing entries).Pairwise fun first second =>
        decide (first ≤ second) = true := by
    apply List.pairwise_mergeSort
    · intro first second third hFirst hSecond
      rw [decide_eq_true_eq] at hFirst hSecond ⊢
      exact String.le_trans hFirst hSecond
    · intro first second
      rw [Bool.or_eq_true, decide_eq_true_eq,
        decide_eq_true_eq]
      exact String.le_total first second
  refine hSorted.imp ?_
  intro first second hLe
  rw [decide_eq_true_eq, ← String.not_lt,
    ← Utf8.bytes_lt_bytes_iff] at hLe
  exact List.not_lt.1 hLe

/- Names that are texts have items of their own. -/
theorem nodup_listing
    {entries : List (Name × Node)}
    (hNames : (entries.map Prod.fst).Nodup)
    (hTexts : ∀ entry ∈ entries, entry.1.raw.IsText) :
    (listing entries).Nodup := by
  rw [(listing_perm entries).nodup_iff,
    List.nodup_iff_pairwise_ne, List.pairwise_map]
  rw [List.nodup_iff_pairwise_ne, List.pairwise_map]
    at hNames
  refine hNames.imp_of_mem ?_
  intro entry other hMem hOther hApart hSame
  exact hApart
    (eq_of_itemOf_eq (hTexts entry hMem)
      (hTexts other hOther) hSame)

/- No item comes twice where the names are texts. -/
theorem strictly_ascending_listing
    {entries : List (Name × Node)}
    (hNames : (entries.map Prod.fst).Nodup)
    (hTexts : ∀ entry ∈ entries, entry.1.raw.IsText) :
    (listing entries).Pairwise fun first second =>
      Utf8.bytes first < Utf8.bytes second := by
  have hNodup := nodup_listing hNames hTexts
  rw [List.nodup_iff_pairwise_ne] at hNodup
  refine (ascending_listing entries).imp₂ ?_ hNodup
  intro first second hLe hApart
  apply Classical.byContradiction
  intro hNot
  have hGe := List.not_lt.1 hNot
  exact hApart
    (Utf8.bytes_injective (List.le_antisymm hLe hGe))

end Navigation

end LineShell

------------------------------------------------------------
-- Listings
------------------------------------------------------------

namespace LineShell

/-
  A call of `ls` is about a directory: the current one, or
  the one to which its argument leads over links, after the
  dots in it were taken as text.
-/
inductive Call.ListsAt
    (call : Call)
    (files : FileSystem)
    (place : Location) : Prop where
  | current
      (hArgs : call.args = [])
      (hPlace :
        files.locate .follow call.directories.current =
          .ok (.found place .directory)) :
      ListsAt call files place
  | argument
      {raw : String}
      {others : List String}
      (hArgs : call.args = raw :: others)
      (hPlace :
        files.locate .follow (call.resolve raw) =
          .ok (.found place .directory)) :
      ListsAt call files place

/-
  A row holds the entries of a directory, each of them once.
-/
structure FileSystem.HoldsEntries
    (files : FileSystem)
    (place : Location)
    (entries : List (Name × Node)) : Prop where
  nodup : (entries.map Prod.fst).Nodup
  mem_iff :
    ∀ name node,
      (name, node) ∈ entries ↔
        files.get? (name :: place) = some node

/-
  An answer lists a directory: one item an entry and none
  besides, in ascending order of bytes, each with a newline
  behind it, and no text where there is no entry. A name
  that is UTF-8 is its own item, up to the slash of a
  directory, so that no item comes twice where all are.
-/
structure Answer.IsListing
    (answer : Answer)
    (files : FileSystem)
    (place : Location)
    (items : List String) : Prop where
  one_each :
    ∃ entries,
      files.HoldsEntries place entries ∧
        items.Perm
          (entries.map fun entry =>
            Navigation.itemOf entry.1 entry.2)
  ascending :
    items.Pairwise fun first second =>
      Utf8.bytes first ≤ Utf8.bytes second
  own :
    ∀ name node,
      files.get? (name :: place) = some node →
        name.raw.IsText →
          Utf8.bytes (Navigation.itemOf name node) =
            name.raw.bytes ++
              (if node = .directory then
                [slashByte]
              else
                [])
  strict :
    (∀ name node,
      files.get? (name :: place) = some node →
        name.raw.IsText) →
      items.Pairwise fun first second =>
        Utf8.bytes first < Utf8.bytes second
  result :
    answer.result =
      .ok
        (if items = [] then
          none
        else
          some (String.join (items.map (· ++ "\n"))))

theorem FileSystem.HoldsEntries.nodup_entries
    {files : FileSystem}
    {place : Location}
    {entries : List (Name × Node)}
    (hEntries : files.HoldsEntries place entries) :
    entries.Nodup := by
  have hNames := hEntries.nodup
  rw [List.nodup_iff_pairwise_ne, List.pairwise_map]
    at hNames
  rw [List.nodup_iff_pairwise_ne]
  refine hNames.imp ?_
  rintro first second hApart rfl
  exact hApart rfl

/- The entries of a directory are those that it holds. -/
theorem FileSystem.holdsEntries_children
    (files : FileSystem)
    (place : Location) :
    files.HoldsEntries place (files.children place) where
  nodup := nodup_children
  mem_iff _ _ := mem_children_iff_get?

/- Rows of the same entries differ in their order alone. -/
theorem FileSystem.HoldsEntries.perm
    {files other : FileSystem}
    {place otherPlace : Location}
    {entries otherEntries : List (Name × Node)}
    (hEntries : files.HoldsEntries place entries)
    (hOther : other.HoldsEntries otherPlace otherEntries)
    (hSame :
      ∀ name,
        other.get? (name :: otherPlace) =
          files.get? (name :: place)) :
    otherEntries.Perm entries := by
  rw [List.perm_ext_iff_of_nodup hOther.nodup_entries
    hEntries.nodup_entries]
  rintro ⟨name, node⟩
  rw [hOther.mem_iff, hEntries.mem_iff, hSame]

/- Entries have one listing. -/
theorem Answer.IsListing.items_eq
    {answer other : Answer}
    {files otherFiles : FileSystem}
    {place otherPlace : Location}
    {items otherItems : List String}
    (hListing : answer.IsListing files place items)
    (hOther :
      other.IsListing otherFiles otherPlace otherItems)
    (hSame :
      ∀ name,
        otherFiles.get? (name :: otherPlace) =
          files.get? (name :: place)) :
    otherItems = items := by
  rcases hListing.one_each with ⟨entries, hEntries, hItems⟩
  rcases hOther.one_each with
    ⟨otherEntries, hOtherEntries, hOtherItems⟩
  have hPerm := hEntries.perm hOtherEntries hSame
  have hAntisymm :
      ∀ first second : String,
        Utf8.bytes first ≤ Utf8.bytes second →
          Utf8.bytes second ≤ Utf8.bytes first →
            first = second := by
    intro first second hLe hGe
    exact Utf8.bytes_injective (List.le_antisymm hLe hGe)
  apply List.Perm.eq_of_pairwise
    (fun first second _ _ => hAntisymm first second)
    hOther.ascending hListing.ascending
  exact (hOtherItems.trans (hPerm.map _)).trans hItems.symm

namespace Navigation

variable
    {call : Call}
    {files : FileSystem}
    {place : Location}

/- A call that is about a directory shows its listing. -/
theorem result_run_ls
    (hLists : call.ListsAt files place) :
    (ls.run call files).result =
      .ok
        (if listing (files.children place) = [] then
          none
        else
          some
            (String.join
              ((listing (files.children place)).map
                (· ++ "\n")))) := by
  have hShown :
      ∀ path,
        files.locate .follow path =
            .ok (.found place .directory) →
          files.nodeAt path = .ok .directory ∧
            files.listDirectory path =
              .ok (files.children place) := by
    intro path hPlace
    simp [FileSystem.nodeAt, FileSystem.listDirectory,
      hPlace, bind, Except.bind]
  cases hLists with
  | current hArgs hPlace =>
      rcases hShown _ hPlace with ⟨hNode, hEntries⟩
      simp only [ls, hArgs, Answer.looking, hNode, hEntries,
        Node.isDirectory, if_true]
      cases listing (files.children place) <;> rfl
  | argument hArgs hPlace =>
      rcases hShown _ hPlace with ⟨hNode, hEntries⟩
      simp only [ls, hArgs, Answer.looking, hNode, hEntries,
        Node.isDirectory, if_true]
      cases listing (files.children place) <;> rfl

/- The listing of a directory is that of its entries. -/
theorem isListing_run_ls
    (hLists : call.ListsAt files place) :
    (ls.run call files).IsListing files place
      (listing (files.children place)) where
  one_each :=
    ⟨_, files.holdsEntries_children place, listing_perm _⟩
  ascending := ascending_listing _
  own := by
    intro name node hEntry hText
    exact bytes_itemOf hText node
  strict := by
    intro hTexts
    apply strictly_ascending_listing
      FileSystem.nodup_children
    rintro ⟨name, node⟩ hMem
    exact hTexts name node
      (FileSystem.mem_children_iff_get?.1 hMem)
  result := result_run_ls hLists

/-
  A directory is listed by its entries alone. The text is the
  same for every call that is about a directory with these
  entries, in whatever order its file system holds them.
-/
theorem ls_lists_entries
    (hLists : call.ListsAt files place) :
    (∃ items,
      (ls.run call files).IsListing files place items) ∧
      ∀ other otherFiles otherPlace,
        Call.ListsAt other otherFiles otherPlace →
          (∀ name,
            otherFiles.get? (name :: otherPlace) =
              files.get? (name :: place)) →
            (ls.run other otherFiles).result =
              (ls.run call files).result := by
  have hListing := isListing_run_ls hLists
  refine ⟨⟨_, hListing⟩, ?_⟩
  intro other otherFiles otherPlace hOther hSame
  have hOtherListing := isListing_run_ls hOther
  rw [hListing.result, hOtherListing.result,
    hListing.items_eq hOtherListing hSame]

/-
  Names in front of one another are compared with the slash
  that a directory has and a link to it has not.
-/
theorem ls_through_link_and_dots :
    ∃ files : FileSystem,
      let call : Call :=
        ⟨["./x/../l"], none, ⟨"/", "/"⟩, [], false⟩
      call.ListsAt files [⟨"d", by decide⟩] ∧
        (∃ items,
          (ls.run call files).IsListing files
            [⟨"d", by decide⟩] items) ∧
        (ls.run call files).result =
          .ok (some "a-b\na/\nab\n") := by
  let entries : Entries :=
    [([⟨"l", by decide⟩], .link "d"),
      ([⟨"ab", by decide⟩, ⟨"d", by decide⟩], .link "/d/a"),
      ([⟨"a", by decide⟩, ⟨"d", by decide⟩], .directory),
      ([⟨"a-b", by decide⟩, ⟨"d", by decide⟩],
        .file ByteArray.empty),
      ([⟨"d", by decide⟩], .directory)]
  have hSound : entries.Sound := by decide
  have hLists :
      Call.ListsAt
        ⟨["./x/../l"], none, ⟨"/", "/"⟩, [], false⟩
        ⟨entries, hSound⟩ [⟨"d", by decide⟩] :=
    .argument rfl rfl
  have hListing :
      listing
          [(⟨"ab", by decide⟩, .link "/d/a"),
            (⟨"a", by decide⟩, .directory),
            (⟨"a-b", by decide⟩, .file ByteArray.empty)] =
        ["a-b", "a/", "ab"] := by
    change ["ab", "a/", "a-b"].mergeSort _ = _
    simp [List.mergeSort]
  have hChildren :
      listing
          (FileSystem.children ⟨entries, hSound⟩
            [⟨"d", by decide⟩]) =
        ["a-b", "a/", "ab"] :=
    hListing
  refine
    ⟨⟨entries, hSound⟩, hLists, (ls_lists_entries hLists).1,
      ?_⟩
  rw [result_run_ls hLists, hChildren]
  rfl

/-
  Names that are not UTF-8 are shown with replacements, so
  that entries may share an item. Dots are taken out of a
  path before its links are followed: behind a link they go
  back to the directory that holds it.
-/
theorem names_share_item_and_dots_ignore_link :
    (∃ files : FileSystem, ∃ name other : Name,
      let call : Call :=
        ⟨[], none, ⟨"/", "/"⟩, [], false⟩
      call.ListsAt files [] ∧
        name ≠ other ∧
        files.get? [name] = some .directory ∧
        files.get? [other] = some .directory ∧
        itemOf name .directory = itemOf other .directory ∧
        (ls.run call files).result =
          .ok (some "\ufffd/\n\ufffd/\n")) ∧
      ∃ files : FileSystem,
        let call : Call :=
          ⟨["l/.."], none, ⟨"/", "/"⟩, [], false⟩
        let named : Call :=
          ⟨["a"], none, ⟨"/", "/"⟩, [], false⟩
        files.locate .follow "/l/.." =
            .ok (.found [⟨"a", by decide⟩] .directory) ∧
          named.ListsAt files [⟨"a", by decide⟩] ∧
          (ls.run named files).result =
            .ok (some "b/\n") ∧
          (ls.run call files).result =
            .ok (some "a/\nl\n") := by
  constructor
  · let entries : Entries :=
      [([⟨⟨[0xff]⟩, by decide⟩], .directory),
        ([⟨⟨[0xfe]⟩, by decide⟩], .directory)]
    have hSound : entries.Sound := by decide
    have hLists :
        Call.ListsAt ⟨[], none, ⟨"/", "/"⟩, [], false⟩
          ⟨entries, hSound⟩ [] :=
      .current rfl rfl
    have hFirst : RawText.shown ⟨[0xff]⟩ = "\ufffd" := by
      decide +kernel
    have hSecond : RawText.shown ⟨[0xfe]⟩ = "\ufffd" := by
      decide +kernel
    have hListing :
        listing (FileSystem.children ⟨entries, hSound⟩ []) =
          ["\ufffd/", "\ufffd/"] := by
      change
        [RawText.shown ⟨[0xff]⟩ ++ "/",
          RawText.shown ⟨[0xfe]⟩ ++ "/"].mergeSort _ = _
      rw [hFirst, hSecond]
      simp [List.mergeSort]
    refine
      ⟨⟨entries, hSound⟩, ⟨⟨[0xff]⟩, by decide⟩,
        ⟨⟨[0xfe]⟩, by decide⟩, hLists, by decide, rfl, rfl,
        congrArg (· ++ "/") (hFirst.trans hSecond.symm), ?_⟩
    rw [result_run_ls hLists, hListing]
    rfl
  · let entries : Entries :=
      [([⟨"l", by decide⟩], .link "a/b"),
        ([⟨"b", by decide⟩, ⟨"a", by decide⟩], .directory),
        ([⟨"a", by decide⟩], .directory)]
    have hSound : entries.Sound := by decide
    have hNamed :
        Call.ListsAt ⟨["a"], none, ⟨"/", "/"⟩, [], false⟩
          ⟨entries, hSound⟩ [⟨"a", by decide⟩] :=
      .argument rfl rfl
    have hLists :
        Call.ListsAt ⟨["l/.."], none, ⟨"/", "/"⟩, [], false⟩
          ⟨entries, hSound⟩ [] :=
      .argument rfl rfl
    have hListing :
        listing (FileSystem.children ⟨entries, hSound⟩ []) =
          ["a/", "l"] := by
      change ["l", "a/"].mergeSort _ = _
      simp [List.mergeSort]
    have hNamedListing :
        listing
            (FileSystem.children ⟨entries, hSound⟩
              [⟨"a", by decide⟩]) =
          ["b/"] := by
      change ["b/"].mergeSort _ = _
      simp
    refine
      ⟨⟨entries, hSound⟩, rfl, hNamed, ?_, ?_⟩
    · rw [result_run_ls hNamed, hNamedListing]
      rfl
    · rw [result_run_ls hLists, hListing]
      rfl

end Navigation

end LineShell

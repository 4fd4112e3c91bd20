import LineShell.FileSystem.Errno
import LineShell.Text.Raw

/-
  This module defines what file systems are made of: names,
  locations, nodes, and tables of entries. A location is the
  row of names that leads from the root to an entry, the
  last name first, so that the tail of a location is the
  directory that holds it.

  Key definitions include:
    * `Name`
    * `Location`
    * `Location.rebase`
    * `Node`
    * `Entries`
    * `Entries.Sound`

  The lemmas `Sound.set`, `Sound.erase` and `Sound.move` say
  which changes keep a table of entries sound.
-/

namespace LineShell

------------------------------------------------------------
-- Names and locations
------------------------------------------------------------

/- The greatest number of bytes in a name. -/
def maxNameBytes : Nat := 255

/- The byte of a slash. -/
def slashByte : UInt8 := 47

/-
  What may name an entry: bytes that are not none, not `.`
  or `..`, not too many, and free of slashes and NULs.
-/
def IsName
    (raw : RawText) : Prop :=
  raw ≠ .ofText "" ∧ raw ≠ .ofText "." ∧
    raw ≠ .ofText ".." ∧
    raw.bytes.length ≤ maxNameBytes ∧
    slashByte ∉ raw.bytes ∧ 0 ∉ raw.bytes

instance
    (raw : RawText) :
    Decidable (IsName raw) := by
  unfold IsName
  infer_instance

/- The name of an entry in its directory. -/
structure Name where
  raw : RawText
  isName : IsName raw
deriving DecidableEq

/-
  Where an entry is: its name, then the name of the
  directory that holds it, and so on up to the root, which
  is the empty row.
-/
abbrev Location :=
  List Name

namespace Location

/- An entry is below another one, or is that one. -/
def IsWithin
    (location base : Location) : Prop :=
  base <:+ location

instance
    (location base : Location) :
    Decidable (IsWithin location base) := by
  unfold IsWithin
  infer_instance

/-
  Where a location ends up when the entry at `source` moves
  to `target` together with all that is below it.
-/
def rebase
    (location source target : Location) : Location :=
  if location.IsWithin source then
    location.take (location.length - source.length) ++
      target
  else
    location

theorem rebase_of_within
    {source target location : Location}
    (h : location.IsWithin source) :
    location.rebase source target =
      location.take (location.length - source.length) ++
        target := by
  simp [rebase, h]

theorem rebase_of_not_within
    {source target location : Location}
    (h : ¬ location.IsWithin source) :
    location.rebase source target = location := by
  simp [rebase, h]

/- What lies below a moved directory moves with it. -/
theorem rebase_cons
    {source target directory : Location}
    {name : Name}
    (h : directory.IsWithin source) :
    Location.rebase (name :: directory) source target =
      name :: Location.rebase directory source target := by
  have hLength : source.length ≤ directory.length :=
    h.length_le
  have hBelow : Location.IsWithin (name :: directory) source :=
    h.trans (List.suffix_cons _ _)
  rw [rebase_of_within h, rebase_of_within hBelow]
  rw [List.length_cons, Nat.succ_sub hLength]
  simp

/- What has moved is within the place it moved to. -/
theorem isWithin_rebase
    {source target location : Location}
    (h : location.IsWithin source) :
    (location.rebase source target).IsWithin target := by
  rw [rebase_of_within h]
  exact List.suffix_append _ _

/- What has moved can be moved back. -/
theorem rebase_rebase
    {source target location : Location}
    (h : location.IsWithin source) :
    (location.rebase source target).rebase target source =
      location := by
  rw [rebase_of_within (isWithin_rebase h),
    rebase_of_within h]
  rcases h with ⟨front, rfl⟩
  simp

/- Two locations that move to one place are one location. -/
theorem rebase_injective
    {source target first second : Location}
    (hFirst : first.IsWithin source)
    (hSecond : second.IsWithin source)
    (h : first.rebase source target =
      second.rebase source target) :
    first = second := by
  rw [← rebase_rebase hFirst, h,
    rebase_rebase hSecond]

end Location

------------------------------------------------------------
-- Nodes
------------------------------------------------------------

/- Two contents are equal when all of their bytes are. -/
local instance decidableEqContent :
    DecidableEq ByteArray :=
  ByteArray.instDecidableEq

/-
  What an entry is: a directory, a regular file with its
  bytes, a symbolic link with the text it leads to, or the
  device that holds nothing and takes everything.
-/
inductive Node where
  | directory
  | file (content : ByteArray)
  | link (target : RawText)
  | nullDevice
deriving DecidableEq

namespace Node

/- A node is a directory itself. -/
def isDirectory :
    Node → Bool
  | directory => true
  | _ => false

end Node

------------------------------------------------------------
-- Tables of entries
------------------------------------------------------------

/- A table of entries, in no particular order. -/
abbrev Entries :=
  List (Location × Node)

namespace Entries

/- A location is the root or holds a directory. -/
def HasDirectory
    (entries : Entries)
    (location : Location) : Prop :=
  location = [] ∨ (location, Node.directory) ∈ entries

instance
    (entries : Entries)
    (location : Location) :
    Decidable (entries.HasDirectory location) := by
  unfold HasDirectory
  infer_instance

/-
  A table is sound when no location occurs twice and each
  one lies in a directory of the table. The root has no row
  of its own.
-/
structure Sound
    (entries : Entries) : Prop where
  nodup : (entries.map Prod.fst).Nodup
  rooted :
    ∀ location node, (location, node) ∈ entries →
      ∃ name directory,
        location = name :: directory ∧
          entries.HasDirectory directory

/- A table is sound if that is so for each of its rows. -/
theorem sound_iff
    (entries : Entries) :
    entries.Sound ↔
      (entries.map Prod.fst).Nodup ∧
        ∀ entry ∈ entries,
          entry.1 ≠ [] ∧
            entries.HasDirectory entry.1.tail := by
  constructor
  · rintro ⟨hNodup, hRooted⟩
    refine ⟨hNodup, ?_⟩
    rintro ⟨location, node⟩ hMem
    rcases hRooted location node hMem with
      ⟨name, directory, rfl, hDirectory⟩
    exact ⟨List.cons_ne_nil _ _, hDirectory⟩
  · rintro ⟨hNodup, hRows⟩
    refine ⟨hNodup, ?_⟩
    intro location node hMem
    rcases hRows (location, node) hMem with
      ⟨hBelow, hDirectory⟩
    cases location with
    | nil => exact absurd rfl hBelow
    | cons name directory =>
        exact ⟨name, directory, rfl, hDirectory⟩

instance
    (entries : Entries) :
    Decidable entries.Sound :=
  decidable_of_iff _ entries.sound_iff.symm

/- The table without the row of a location. -/
def erase
    (entries : Entries)
    (location : Location) : Entries :=
  entries.filter fun entry => entry.1 ≠ location

/- The table with one row for a location. -/
def set
    (entries : Entries)
    (location : Location)
    (node : Node) : Entries :=
  (location, node) :: erase entries location

/- The table in which a location has moved elsewhere. -/
def move
    (entries : Entries)
    (source target : Location) : Entries :=
  entries.map fun entry =>
    (entry.1.rebase source target, entry.2)

theorem mem_erase_iff
    {entries : Entries}
    {removed location : Location}
    {node : Node} :
    (location, node) ∈ entries.erase removed ↔
      (location, node) ∈ entries ∧ location ≠ removed := by
  simp [erase]

theorem mem_set_iff
    {entries : Entries}
    {changed location : Location}
    {node new : Node} :
    (location, node) ∈ entries.set changed new ↔
      (location = changed ∧ node = new) ∨
        ((location, node) ∈ entries ∧
          location ≠ changed) := by
  simp [set, mem_erase_iff]

theorem mem_move_iff
    {entries : Entries}
    {source target location : Location}
    {node : Node} :
    (location, node) ∈ entries.move source target ↔
      ∃ before,
        (before, node) ∈ entries ∧
          before.rebase source target = location := by
  simp only [move, List.mem_map, Prod.mk.injEq]
  constructor
  · rintro ⟨⟨before, old⟩, hMem, hLocation, rfl⟩
    exact ⟨before, hMem, hLocation⟩
  · rintro ⟨before, hMem, hLocation⟩
    exact ⟨(before, node), hMem, hLocation, rfl⟩

theorem nodup_erase
    {entries : Entries}
    (h : (entries.map Prod.fst).Nodup)
    (location : Location) :
    ((entries.erase location).map Prod.fst).Nodup :=
  h.sublist (List.filter_sublist.map Prod.fst)

namespace Sound

/- Two rows of a sound table at one location are one row. -/
theorem node_unique
    {entries : Entries}
    (h : entries.Sound)
    {location : Location}
    {first second : Node}
    (hFirst : (location, first) ∈ entries)
    (hSecond : (location, second) ∈ entries) :
    first = second := by
  have hNodup := h.nodup
  clear h
  induction entries with
  | nil => cases hFirst
  | cons entry rest ih =>
    simp only [List.map_cons, List.nodup_cons] at hNodup
    have hFresh : ∀ node, (location, node) ∈ rest →
        location ≠ entry.1 := by
      intro node hMem hEq
      exact hNodup.1
        (hEq ▸ List.mem_map_of_mem (f := Prod.fst) hMem)
    rcases List.mem_cons.1 hFirst with rfl | hFirst' <;>
      rcases List.mem_cons.1 hSecond with hEq | hSecond'
    · exact (congrArg Prod.snd hEq).symm
    · exact absurd rfl (hFresh _ hSecond')
    · exact absurd (congrArg Prod.fst hEq) (hFresh _ hFirst')
    · exact ih hFirst' hSecond' hNodup.2

/-
  Taking a row away keeps a table sound when nothing lies in
  the location.
-/
theorem erase
    {entries : Entries}
    (h : entries.Sound)
    {location : Location}
    (hEmpty :
      ∀ name node, (name :: location, node) ∉ entries) :
    (entries.erase location).Sound where
  nodup := nodup_erase h.nodup location
  rooted := by
    intro other node hMem
    have hOther := (mem_erase_iff.1 hMem).1
    rcases h.rooted other node hOther with
      ⟨name, directory, rfl, hDirectory⟩
    refine ⟨name, directory, rfl, ?_⟩
    rcases hDirectory with rfl | hDirectory
    · exact Or.inl rfl
    · refine Or.inr (mem_erase_iff.2 ⟨hDirectory, ?_⟩)
      rintro rfl
      exact hEmpty name node hOther

/-
  Writing a row keeps a table sound when the location lies
  in a directory and no directory is lost.
-/
theorem set
    {entries : Entries}
    (h : entries.Sound)
    {name : Name}
    {directory : Location}
    {node : Node}
    (hDirectory : entries.HasDirectory directory)
    (hKept :
      node = .directory ∨
        (name :: directory, Node.directory) ∉ entries) :
    (entries.set (name :: directory) node).Sound where
  nodup := by
    simp only [Entries.set, List.map_cons, List.nodup_cons]
    refine ⟨?_, nodup_erase h.nodup _⟩
    intro hMem
    rcases List.mem_map.1 hMem with ⟨⟨other, old⟩, hOld, hEq⟩
    exact (mem_erase_iff.1 hOld).2 hEq
  rooted := by
    have keep : ∀ {base : Location},
        entries.HasDirectory base →
          (entries.set (name :: directory) node).HasDirectory
            base := by
      intro base hBase
      rcases hBase with rfl | hBase
      · exact Or.inl rfl
      · refine Or.inr (mem_set_iff.2 ?_)
        by_cases hEq : base = name :: directory
        · subst hEq
          exact Or.inl
            ⟨rfl, (hKept.resolve_right
              (fun hLost => hLost hBase)).symm⟩
        · exact Or.inr ⟨hBase, hEq⟩
    intro other new hMem
    rcases mem_set_iff.1 hMem with ⟨rfl, _⟩ | ⟨hOld, _⟩
    · exact ⟨name, directory, rfl, keep hDirectory⟩
    · rcases h.rooted other new hOld with
        ⟨first, base, rfl, hBase⟩
      exact ⟨first, base, rfl, keep hBase⟩

/- Everything that lies above a row has a row as well. -/
theorem mem_of_suffix
    {entries : Entries}
    (h : entries.Sound)
    {location base : Location}
    {node : Node}
    (hMem : (location, node) ∈ entries)
    (hSuffix : base <:+ location)
    (hBase : base ≠ []) :
    ∃ other, (base, other) ∈ entries := by
  induction location generalizing node with
  | nil => exact absurd (List.suffix_nil.1 hSuffix) hBase
  | cons name directory ih =>
    rcases List.suffix_cons_iff.1 hSuffix with
      rfl | hSuffix
    · exact ⟨node, hMem⟩
    · rcases h.rooted _ _ hMem with
        ⟨first, rest, hEq, hRest⟩
      cases hEq
      rcases hRest with rfl | hRest
      · exact absurd (List.suffix_nil.1 hSuffix) hBase
      · exact ih hRest hSuffix

/-
  Moving a location keeps a table sound when nothing is at
  the new place, which lies in a directory outside of what
  moves.
-/
theorem move
    {entries : Entries}
    (h : entries.Sound)
    {source : Location}
    {name : Name}
    {directory : Location}
    (hSource : source ≠ [])
    (hDirectory : entries.HasDirectory directory)
    (hApart : ¬ Location.IsWithin (name :: directory) source)
    (hFree : ∀ node, (name :: directory, node) ∉ entries) :
    (entries.move source (name :: directory)).Sound where
  nodup := by
    have hKeys :
        (entries.move source (name :: directory)).map
            Prod.fst =
          (entries.map Prod.fst).map
            (Location.rebase · source (name :: directory)) := by
      simp [Entries.move]
    rw [hKeys]
    refine List.pairwise_map.2 (h.nodup.imp_of_mem ?_)
    intro first second hFirst hSecond hNe hEq
    have outside : ∀ {moved kept : Location},
        moved.IsWithin source →
        ¬ kept.IsWithin source →
        kept ∈ entries.map Prod.fst →
        moved.rebase source (name :: directory) ≠
          kept.rebase source (name :: directory) := by
      intro moved kept hMoved hKept hMem hSame
      rcases List.mem_map.1 hMem with ⟨⟨key, node⟩, hRow, rfl⟩
      rw [Location.rebase_of_within hMoved,
        Location.rebase_of_not_within hKept] at hSame
      have hAbove : (name :: directory : Location) <:+ key :=
        ⟨_, hSame⟩
      rcases h.mem_of_suffix hRow hAbove (by simp) with
        ⟨other, hOther⟩
      exact hFree other hOther
    by_cases hIn : first.IsWithin source <;>
      by_cases hIn' : second.IsWithin source
    · exact hNe (Location.rebase_injective hIn hIn' hEq)
    · exact outside hIn hIn' hSecond hEq
    · exact outside hIn' hIn hFirst hEq.symm
    · rw [Location.rebase_of_not_within hIn,
        Location.rebase_of_not_within hIn'] at hEq
      exact hNe hEq
  rooted := by
    have stay : ∀ {base : Location},
        ¬ base.IsWithin source →
        entries.HasDirectory base →
        (entries.move source (name :: directory)).HasDirectory
          base := by
      intro base hOut hBase
      refine hBase.imp id fun hMem => ?_
      refine List.mem_map.2 ⟨_, hMem, ?_⟩
      simp [Location.rebase_of_not_within hOut]
    intro location node hMem
    rcases List.mem_map.1 hMem with ⟨⟨key, old⟩, hRow, hEq⟩
    simp only [Prod.mk.injEq] at hEq
    rcases hEq with ⟨rfl, rfl⟩
    rcases h.rooted _ _ hRow with ⟨first, base, rfl, hBase⟩
    by_cases hIn : Location.IsWithin (first :: base) source
    · rcases List.suffix_cons_iff.1 hIn with hEq | hBelow
      · refine ⟨name, directory, ?_, stay ?_ hDirectory⟩
        · rw [Location.rebase_of_within hIn, hEq]
          simp
        · exact fun hOut =>
            hApart (hOut.trans (List.suffix_cons _ _))
      · refine ⟨first,
          Location.rebase base source (name :: directory),
          ?_, ?_⟩
        · exact Location.rebase_cons hBelow
        · rcases hBase with rfl | hBase
          · exact absurd (List.suffix_nil.1 hBelow) hSource
          · exact Or.inr (List.mem_map.2 ⟨_, hBase, rfl⟩)
    · rw [Location.rebase_of_not_within hIn]
      refine ⟨first, base, rfl, stay ?_ hBase⟩
      exact fun hOut =>
        hIn (hOut.trans (List.suffix_cons _ _))

end Sound

end Entries

end LineShell

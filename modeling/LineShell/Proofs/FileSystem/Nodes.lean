import LineShell.FileSystem.Access
import LineShell.Proofs.FileSystem.Lookup

/-
  The nodes that paths name. A path that is followed names
  what its steps lead to, and a path whose last link is kept
  names that link.

  Key definitions include:
    * `FileSystem.NamesDirectory`

  Correctness is proven by:
    * `FileSystem.nodeAt_eq_ok_iff`
    * `FileSystem.linkNodeAt_eq_ok_iff`
    * `FileSystem.isDirectoryAt_iff`
-/

------------------------------------------------------------
-- Nodes and directories
------------------------------------------------------------

namespace LineShell

namespace FileSystem

variable
    {files : FileSystem}
    {path : String}

/- A path has the node of the spot that it leads to. -/
theorem nodeAt_eq_ok_iff
    {node : Node} :
    files.nodeAt path = .ok node ↔
      ∃ location,
        files.locate .follow path =
          .ok (.found location node) := by
  unfold nodeAt
  cases files.locate .follow path with
  | error cause => simp [bind, Except.bind]
  | ok spot => cases spot <;> simp [bind, Except.bind]

/- A link at the end of a path is itself what is named. -/
theorem linkNodeAt_eq_ok_iff
    {node : Node} :
    files.linkNodeAt path = .ok node ↔
      ∃ location,
        files.locate .keep path =
          .ok (.found location node) := by
  unfold linkNodeAt
  cases files.locate .keep path with
  | error cause => simp [bind, Except.bind]
  | ok spot => cases spot <;> simp [bind, Except.bind]

/-
  A path leads to a directory, over links where there are
  any.
-/
def NamesDirectory
    (files : FileSystem)
    (path : String) : Prop :=
  IsSearchable path ∧
    ∃ location,
      Leads files .follow maxLinks [] (Step.ofPath path)
        (.found location .directory)

/- A node found at a path is a directory. -/
theorem nodeAt_directory_iff :
    files.nodeAt path = .ok .directory ↔
      files.NamesDirectory path := by
  unfold NamesDirectory
  rw [nodeAt_eq_ok_iff]
  simp only [locate_eq_ok_iff, exists_and_left]

theorem isDirectoryAt_iff :
    files.isDirectoryAt path = true ↔
      files.NamesDirectory path := by
  rw [← nodeAt_directory_iff]
  unfold isDirectoryAt
  cases files.nodeAt path with
  | error cause => simp
  | ok node => cases node <;> simp [Node.isDirectory]

/- The last name leads to what is there, link or not. -/
theorem leads_of_last
    {links : Nat}
    {here : Location}
    {name : Name}
    {node : Node}
    (hNode : files.get? (name :: here) = some node) :
    Leads files .keep links here [.down name]
      (.found (name :: here) node) := by
  cases node with
  | directory => exact .enter hNode (by simp) .arrive
  | link target => exact .keep hNode rfl
  | file content => exact .stop hNode (by simp)
  | nullDevice => exact .stop hNode (by simp)

end FileSystem

end LineShell

import LineShell.FileSystem.Walk
import LineShell.Proofs.Text.Lines

/-
  Names and paths that are texts. A file system has names as
  bytes; where they are the bytes of a text, its characters
  tell whether it is a name and which steps a path takes.

  Key definitions include:
    * `RawText.IsText`
    * `Step.ofText`

  Correctness is proven by:
    * `isName_ofText_iff`
    * `Step.ofPath_ofText`
-/

------------------------------------------------------------
-- Names that are texts
------------------------------------------------------------

namespace LineShell

namespace RawText

/- A raw text has the bytes of a text. -/
def IsText
    (raw : RawText) : Prop :=
  ∃ text, raw = ofText text

theorem ofText_injective :
    Function.Injective ofText := by
  intro first second hSame
  exact Utf8.bytes_injective (congrArg bytes hSame)

/- A raw text that is a text is the text that is shown. -/
theorem IsText.ofText_shown
    {raw : RawText}
    (hText : raw.IsText) :
    ofText raw.shown = raw := by
  rcases hText with ⟨text, rfl⟩
  rw [shown_ofText]

end RawText

/- A text may name an entry if its characters allow it. -/
theorem isName_ofText_iff
    {text : String} :
    IsName text ↔
      text ≠ "" ∧ text ≠ "." ∧ text ≠ ".." ∧
        text.utf8ByteSize ≤ maxNameBytes ∧
        '/' ∉ text.toList ∧ '\x00' ∉ text.toList := by
  have hSlash :
      slashByte ∈ Utf8.bytes text ↔ '/' ∈ text.toList :=
    Utf8.mem_bytes_iff (c := '/') (by decide)
  have hNul :
      0 ∈ Utf8.bytes text ↔ '\x00' ∈ text.toList :=
    Utf8.mem_bytes_iff (c := '\x00') (by decide)
  unfold IsName
  rw [RawText.ofText_injective.ne_iff,
    RawText.ofText_injective.ne_iff,
    RawText.ofText_injective.ne_iff]
  simp only [RawText.ofText, hSlash, hNul,
    Utf8.length_bytes]

end LineShell

------------------------------------------------------------
-- Paths that are texts
------------------------------------------------------------

namespace LineShell

namespace Step

/- The step of a piece that is a text. -/
def ofText
    (piece : String) : Step :=
  ofPiece piece

theorem ofText_eq
    (piece : String) :
    ofText piece =
      if piece = "." then
        .stay
      else if piece = ".." then
        .up
      else if h : IsName piece then
        .down ⟨piece, h⟩
      else
        .unusable := by
  unfold ofText ofPiece
  simp only [RawText.ofText_injective.eq_iff]

/- The pieces of a path that is a text are texts. -/
theorem ofPath_ofText
    (path : String) :
    ofPath path =
      let pieces := path.toList.splitOn '/'
      let steps :=
        (pieces.filter (· ≠ [])).map fun piece =>
          ofText (String.ofList piece)
      if pieces.getLast? = some [] then
        steps ++ [.slash]
      else
        steps := by
  have hPieces :
      (Utf8.bytes path).splitOn slashByte =
        (path.toList.splitOn '/').map fun piece =>
          Utf8.bytes (String.ofList piece) :=
    Utf8.splitOn_bytes (c := '/') (by decide) path
  have hNone :
      ∀ piece : List Char,
        Utf8.bytes (String.ofList piece) = [] ↔
          piece = [] := by
    intro piece
    rw [Utf8.bytes_eq_nil_iff, String.ofList_eq_empty_iff]
  have hLast :
      ((path.toList.splitOn '/').map fun piece =>
            Utf8.bytes (String.ofList piece)).getLast? =
          some [] ↔
        (path.toList.splitOn '/').getLast? = some [] := by
    rw [List.getLast?_map]
    cases (path.toList.splitOn '/').getLast? with
    | none => simp
    | some piece => simp [hNone]
  unfold ofPath
  dsimp only [RawText.ofText]
  simp only [hPieces, hLast, List.filter_map, List.map_map]
  have hFilter :
      ((fun piece : List UInt8 => decide (piece ≠ [])) ∘
          fun piece =>
            Utf8.bytes (String.ofList piece)) =
        fun piece => decide (piece ≠ []) := by
    funext piece
    simp [hNone]
  rw [hFilter]
  rfl

end Step

end LineShell

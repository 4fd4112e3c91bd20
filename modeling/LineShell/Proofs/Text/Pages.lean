import LineShell.Paging
import LineShell.Proofs.Text.Slices

/-
  Pages as pieces of a text. A loop over the bytes of a text
  counts newlines and notes where pages start and stop. None
  of these places is out of the text or inside a character,
  and the pages of the text are the pieces between them.

  Key definitions include:
    * `Paging.Range`
    * `Paging.ranges`

  Correctness is proven by:
    * `Paging.slice?_rangesFrom`
    * `Paging.slice?_ranges`
-/

------------------------------------------------------------
-- Ranges of bytes
------------------------------------------------------------

namespace LineShell

namespace Paging

/- Where a page starts in a text, and where it stops. -/
structure Range where
  start : Nat
  stop : Nat
deriving DecidableEq, Repr

/-
  The ranges of the pages from a start on, when the bytes
  before a position have been read and some of them were
  newlines.
-/
def rangesFrom
    (lines : Nat)
    (start newlines position : Nat) :
    List UInt8 → List Range
  | [] =>
    if start < position then [⟨start, position⟩] else []
  | byte :: rest =>
    if byte = 10 then
      if newlines + 1 = lines then
        ⟨start, position + 1⟩ ::
          rangesFrom lines (position + 1) 0 (position + 1)
            rest
      else
        rangesFrom lines start (newlines + 1) (position + 1)
          rest
    else
      rangesFrom lines start newlines (position + 1) rest

/- The ranges of the pages of a text. -/
def ranges
    (text : String)
    (lines : Nat) : List Range :=
  rangesFrom lines 0 0 0 (Utf8.bytes text)

end Paging

end LineShell

------------------------------------------------------------
-- Ranges and pages
------------------------------------------------------------

namespace LineShell

namespace Paging

open Text (byteLength byteLength_append byteLength_nil
  byteLength_pos slice?)

variable
    (lines : Nat)

/- Bytes without a newline are read on one page. -/
theorem rangesFrom_append_of_not_mem
    {bytes : List UInt8}
    (hNone : 10 ∉ bytes)
    (start newlines position : Nat)
    (rest : List UInt8) :
    rangesFrom lines start newlines position
        (bytes ++ rest) =
      rangesFrom lines start newlines
        (position + bytes.length) rest := by
  induction bytes generalizing position with
  | nil => rfl
  | cons byte bytes ih =>
      simp only [List.mem_cons, not_or] at hNone
      rw [List.cons_append, rangesFrom,
        if_neg (Ne.symm hNone.1), ih hNone.2,
        List.length_cons, Nat.add_assoc,
        Nat.add_comm bytes.length 1]

/- What was read before a piece and the piece itself. -/
theorem slice?_between
    (front piece back : List Char) :
    slice? (String.ofList (front ++ piece ++ back))
        (byteLength front)
        (byteLength front + byteLength piece) =
      some (String.ofList piece) := by
  have hPart :=
    Text.slice?_append (String.ofList front)
      (String.ofList piece) (String.ofList back)
  rw [← Text.byteLength_toList, ← Text.byteLength_toList,
    String.toList_ofList, String.toList_ofList,
    ← String.ofList_append, ← String.ofList_append] at hPart
  exact hPart

/-
  The loop over bytes and the one over characters cut off the
  same pages, and each range can be cut out of the text. The
  induction is over the characters that are left; what came
  before them ends in the part of a page that has begun.
-/
theorem slice?_rangesFrom
    (front begun rest : List Char)
    (newlines : Nat) :
    (rangesFrom lines (byteLength front) newlines
          (byteLength front + byteLength begun)
          (rest.flatMap String.utf8EncodeChar)).map
        (fun range =>
          slice? (String.ofList (front ++ begun ++ rest))
            range.start range.stop) =
      (pagesFrom lines begun.reverse (lines - newlines)
        rest).map some := by
  induction rest generalizing front begun newlines with
  | nil =>
      cases hBegun : begun.reverse with
      | nil =>
          rw [List.reverse_eq_nil_iff] at hBegun
          subst hBegun
          simp [rangesFrom, pagesFrom]
      | cons last others =>
          have hSome : begun ≠ [] := by
            intro hNone
            rw [hNone] at hBegun
            exact List.cons_ne_nil _ _ hBegun.symm
          have hSlice := slice?_between front begun []
          rw [List.flatMap_nil, rangesFrom,
            if_pos
              (Nat.lt_add_of_pos_right
                (byteLength_pos hSome)),
            ← hBegun, pagesFrom, List.reverse_reverse]
          · rw [List.map_cons, List.map_nil, hSlice,
              List.map_cons, List.map_nil]
          · rw [hBegun]
            exact List.cons_ne_nil _ _
  | cons c rest ih =>
      have hChars :
          front ++ begun ++ c :: rest =
            front ++ (begun ++ [c]) ++ rest := by
        simp
      have hLength :
          byteLength front + byteLength begun + c.utf8Size =
            byteLength front + byteLength (begun ++ [c]) := by
        simp [Nat.add_assoc]
      by_cases hNewline : c = '\n'
      · subst hNewline
        have hByte : String.utf8EncodeChar '\n' = [10] := rfl
        rw [List.flatMap_cons, hByte, List.singleton_append,
          rangesFrom, if_pos rfl, pagesFrom]
        have hSize : Char.utf8Size '\n' = 1 := rfl
        rw [hSize] at hLength
        by_cases hFull : newlines + 1 = lines
        · have hMissing : lines - newlines = 1 := by omega
          have hSlice :=
            slice?_between front (begun ++ ['\n']) rest
          have hRest := ih (front ++ (begun ++ ['\n'])) [] 0
          rw [byteLength_nil, Nat.add_zero, List.append_nil,
            List.reverse_nil, Nat.sub_zero,
            byteLength_append] at hRest
          rw [if_pos hFull, if_pos ⟨rfl, hMissing⟩, hLength,
            hChars, List.map_cons, List.map_cons, hSlice,
            hRest, List.reverse_cons, List.reverse_reverse]
        · have hMissing : ¬ lines - newlines = 1 := by omega
          rw [if_neg hFull,
            if_neg (fun hBoth => hMissing hBoth.2), if_pos rfl,
            hLength, hChars, ih, List.reverse_append,
            List.reverse_singleton, List.singleton_append,
            Nat.sub_sub]
      · have hNone : 10 ∉ String.utf8EncodeChar c :=
          fun hMem =>
            hNewline
              (Utf8.eq_of_mem_encoded (d := '\n') (by decide)
                hMem)
        rw [List.flatMap_cons,
          rangesFrom_append_of_not_mem lines hNone,
          String.length_utf8EncodeChar, hLength, hChars, ih,
          List.reverse_append, List.reverse_singleton,
          List.singleton_append, pagesFrom,
          if_neg (fun hBoth => hNewline hBoth.1),
          if_neg hNewline]

/-
  Every page is a piece of its text: no range is out of it
  or starts or stops inside a character, whatever the number
  of lines on a page.
-/
theorem slice?_ranges
    (text : String)
    (lines : Nat) :
    (ranges text lines).map
        (fun range =>
          slice? text range.start range.stop) =
      (paginate text lines).map some := by
  have hPieces :=
    slice?_rangesFrom lines [] [] text.toList 0
  rw [List.append_nil, List.nil_append,
    String.ofList_toList, ← Utf8.bytes_eq_flatMap] at hPieces
  exact hPieces

theorem hasSlice_of_mem_ranges
    {text : String}
    {lines : Nat}
    {range : Range}
    (hMem : range ∈ ranges text lines) :
    Text.HasSlice text range.start range.stop := by
  have hPiece :
      slice? text range.start range.stop ∈
        (paginate text lines).map some := by
    rw [← slice?_ranges]
    exact List.mem_map_of_mem hMem
  rcases List.mem_map.1 hPiece with ⟨page, _, hPage⟩
  exact Text.hasSlice_of_slice? hPage.symm

end Paging

end LineShell

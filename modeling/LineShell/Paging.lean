import LineShell.Text.Blank
import LineShell.Text.Utf8

/-
  This module cuts texts into pages and shows them one at a
  time, with a question between two pages.

  Key definitions include:
    * `Paging.paginate`
    * `Paging.Showing`
    * `Paging.page`
-/

namespace LineShell

namespace Paging

------------------------------------------------------------
-- Pages
------------------------------------------------------------

/-
  The pages of a text of which part of the first page is
  given, last character first, and the number of lines that
  are missing from it. A page without missing lines never
  ends.
-/
def pagesFrom
    (lines : Nat) :
    List Char → Nat → List Char → List String
  | [], _, [] => []
  | begun, _, [] => [String.ofList begun.reverse]
  | begun, missing, c :: rest =>
    if c = '\n' ∧ missing = 1 then
      String.ofList (c :: begun).reverse ::
        pagesFrom lines [] lines rest
    else if c = '\n' then
      pagesFrom lines (c :: begun) (missing - 1) rest
    else
      pagesFrom lines (c :: begun) missing rest

/-
  A text in pages of the given number of lines. The last
  page may be shorter, and zero lines make one page of the
  whole text.
-/
def paginate
    (text : String)
    (lines : Nat) : List String :=
  pagesFrom lines [] lines text.toList

------------------------------------------------------------
-- Showing pages
------------------------------------------------------------

/-
  What is left of a showing: the text that was written, the
  number of bytes that were read, and whether a reply was no
  text.
-/
structure Showing where
  output : String
  consumed : Nat
  unreadable : Bool
deriving DecidableEq, Repr

namespace Showing

/- A showing that had more to write and read at its start. -/
def after
    (showing : Showing)
    (output : String)
    (consumed : Nat) : Showing :=
  { showing with
    output := output ++ showing.output
    consumed := consumed + showing.consumed }

/- The words for a reply that is no text. -/
def unreadableMessage : String :=
  "stream did not contain valid UTF-8"

end Showing

/- The question after a page. -/
def question
    (shown total : Nat) : String :=
  "--More-- (" ++ toString shown ++ "/" ++
    toString total ++ ")"

/-
  Shows pages after a number of others, out of a total, and
  reads a reply after each but the last. The end of the
  replies, or the single letter `q`, ends the showing.
-/
def showPages
    (total : Nat) :
    Nat → List String → List UInt8 → Showing
  | _, [], _ => ⟨"", 0, false⟩
  | _, [page], _ => ⟨page, 0, false⟩
  | shown, page :: pages, input =>
    let asked := page ++ question (shown + 1) total
    let (reply, rest) := Utf8.firstLine input
    match Utf8.decode? (ByteArray.mk reply.toArray) with
    | none => ⟨asked, reply.length, true⟩
    | some text =>
      if reply = [] ∨ Text.trim text = "q" then
        ⟨asked ++ "\n", reply.length, false⟩
      else
        (showPages total (shown + 1) pages rest).after asked
          reply.length

/- Shows a text page by page. -/
def page
    (text : String)
    (lines : Nat)
    (input : List UInt8) : Showing :=
  let pages := paginate text lines
  showPages pages.length 0 pages input

end Paging

end LineShell

import LineShell.Proofs.Paging.Split
import LineShell.Proofs.Text.Lines

/-
  Pages shown one at a time. A showing is told by the number
  of replies after which it went on and by how it ended: all
  that was written is then known, and so are the replies
  that were read for it.

  Key definitions include:
    * `Paging.GoesOn`
    * `Paging.Quits`
    * `Paging.Write`
    * `Paging.asked`
    * `Paging.Ending`
    * `Paging.IsShowing`

  Correctness is proven by:
    * `Paging.IsShowing.after`
    * `Paging.exists_isShowing`
    * `Paging.page_asks_between_pages`
-/

------------------------------------------------------------
-- Replies
------------------------------------------------------------

namespace LineShell

namespace Paging

/- The text of a reply, if it is one. -/
def textOf?
    (reply : List UInt8) : Option String :=
  Utf8.decode? (ByteArray.mk reply.toArray)

/- A reply that asks for the next page. -/
def GoesOn
    (reply : List UInt8) : Prop :=
  ∃ text,
    textOf? reply = some text ∧ Text.trim text ≠ "q"

/- A reply that asks for no more pages. -/
def Quits
    (reply : List UInt8) : Prop :=
  ∃ text,
    textOf? reply = some text ∧ Text.trim text = "q"

end Paging

end LineShell

------------------------------------------------------------
-- What is written
------------------------------------------------------------

namespace LineShell

namespace Paging

/-
  One piece of what a showing writes: a page, the question
  after a number of pages, or a newline.
-/
inductive Write where
  | page (text : String)
  | question (shown total : Nat)
  | newline
deriving DecidableEq, Repr

namespace Write

/- The text of a piece. -/
def text :
    Write → String
  | page text => text
  | question shown total => Paging.question shown total
  | newline => "\n"

/- The page that a piece is, if it is one. -/
def page? :
    Write → Option String
  | page text => some text
  | _ => none

end Write

/- Pages after a number of others, with a question behind each. -/
def asked
    (total : Nat) :
    Nat → List String → List Write
  | _, [] => []
  | shown, page :: pages =>
    .page page :: .question (shown + 1) total ::
      asked total (shown + 1) pages

/-
  How a showing ends: with the last page, because no more is
  wanted, or because a reply was no text.
-/
inductive Ending where
  | finished
  | stopped
  | unreadable
deriving DecidableEq, Repr

namespace Ending

/-
  All that is written when a showing went on after a number
  of replies and then ended.
-/
def writes
    (total shown : Nat)
    (pages : List String)
    (answered : Nat) :
    Ending → List Write
  | finished =>
    asked total shown (pages.take answered) ++
      (pages.drop answered).map .page
  | stopped =>
    asked total shown (pages.take (answered + 1)) ++
      [.newline]
  | unreadable =>
    asked total shown (pages.take (answered + 1))

/- How many replies were read, if there were as many. -/
def read
    (answered : Nat) :
    Ending → Nat
  | finished => answered
  | stopped => answered + 1
  | unreadable => answered + 1

/-
  Why a showing ends after a number of replies. It finishes
  with the last page; it stops where the replies are used up
  or the next one asks for no more; and the reply that is no
  text is the next one.
-/
def IsDue
    (pages : List String)
    (replies : List (List UInt8))
    (answered : Nat) :
    Ending → Prop
  | finished => answered = pages.length - 1
  | stopped =>
    answered + 1 < pages.length ∧
      ∀ reply, replies[answered]? = some reply → Quits reply
  | unreadable =>
    answered + 1 < pages.length ∧
      ∃ reply,
        replies[answered]? = some reply ∧
          textOf? reply = none

end Ending

/-
  What becomes of pages after a number of others: a number
  of replies ask to go on, and then the showing ends. It has
  written the pages up to there with the questions behind
  them, and read the replies up to there and nothing more.
-/
structure IsShowing
    (total shown : Nat)
    (pages : List String)
    (input : List UInt8)
    (answered : Nat)
    (ending : Ending)
    (showing : Showing) : Prop where
  went_on :
    ∀ index,
      index < answered →
        ∃ reply,
          (Utf8.lines input)[index]? = some reply ∧
            GoesOn reply
  ended : ending.IsDue pages (Utf8.lines input) answered
  output :
    showing.output =
      String.join
        ((ending.writes total shown pages answered).map
          (·.text))
  consumed :
    showing.consumed =
      ((Utf8.lines input).take
        (ending.read answered)).flatten.length
  unreadable_iff :
    showing.unreadable = true ↔ ending = .unreadable

end Paging

end LineShell

------------------------------------------------------------
-- One page and its reply
------------------------------------------------------------

namespace LineShell

namespace Paging

variable
    {total shown : Nat}
    {page next : String}
    {pages : List String}
    {input : List UInt8}

/- No bytes are the text without characters. -/
theorem textOf?_nil :
    textOf? [] = some "" :=
  Utf8.decode?_bytes ""

/-
  After a page that is not the last one, the next reply says
  how the showing goes on.
-/
theorem showPages_cons
    (total shown : Nat)
    (page next : String)
    (pages : List String)
    (input : List UInt8) :
    showPages total shown (page :: next :: pages) input =
      match textOf? (Utf8.firstLine input).1 with
      | none =>
        ⟨page ++ question (shown + 1) total,
          (Utf8.firstLine input).1.length, true⟩
      | some text =>
        if (Utf8.firstLine input).1 = [] ∨
            Text.trim text = "q" then
          ⟨page ++ question (shown + 1) total ++ "\n",
            (Utf8.firstLine input).1.length, false⟩
        else
          (showPages total (shown + 1) (next :: pages)
              (Utf8.firstLine input).2).after
            (page ++ question (shown + 1) total)
            (Utf8.firstLine input).1.length :=
  rfl

/- The first page is written before what is written later. -/
theorem Ending.writes_cons
    (ending : Ending)
    (answered : Nat) :
    ending.writes total shown (page :: pages)
        (answered + 1) =
      .page page :: .question (shown + 1) total ::
        ending.writes total (shown + 1) pages answered := by
  cases ending <;> rfl

theorem Ending.isDue_cons
    {ending : Ending}
    {reply : List UInt8}
    {replies : List (List UInt8)}
    {answered : Nat}
    (hDue : ending.IsDue (next :: pages) replies answered) :
    ending.IsDue (page :: next :: pages) (reply :: replies)
      (answered + 1) := by
  cases ending with
  | finished =>
      have hLast : answered = (next :: pages).length - 1 :=
        hDue
      rw [Ending.IsDue, hLast]
      rfl
  | stopped =>
      exact ⟨Nat.succ_lt_succ hDue.1, hDue.2⟩
  | unreadable =>
      exact ⟨Nat.succ_lt_succ hDue.1, hDue.2⟩

theorem Ending.read_succ
    (ending : Ending)
    (answered : Nat) :
    ending.read (answered + 1) = ending.read answered + 1 := by
  cases ending <;> rfl

/-
  Where the first reply asks to go on, the showing is the
  page and the question before the rest of it.
-/
theorem IsShowing.after
    {answered : Nat}
    {ending : Ending}
    {showing : Showing}
    (hInput : input ≠ [])
    (hReply : GoesOn (Utf8.firstLine input).1)
    (hRest :
      IsShowing total (shown + 1) (next :: pages)
        (Utf8.firstLine input).2 answered ending showing) :
    IsShowing total shown (page :: next :: pages) input
      (answered + 1) ending
      (showing.after (page ++ question (shown + 1) total)
        (Utf8.firstLine input).1.length) where
  went_on := by
    intro index hIndex
    rw [Utf8.lines_eq_cons hInput]
    cases index with
    | zero => exact ⟨_, rfl, hReply⟩
    | succ index =>
        exact hRest.went_on index (Nat.lt_of_succ_lt_succ hIndex)
  ended := by
    rw [Utf8.lines_eq_cons hInput]
    exact Ending.isDue_cons hRest.ended
  output := by
    rw [Ending.writes_cons, List.map_cons, List.map_cons,
      String.join_cons, String.join_cons, ← hRest.output,
      ← String.append_assoc]
    rfl
  consumed := by
    rw [Utf8.lines_eq_cons hInput, Ending.read_succ,
      List.take_succ_cons, List.flatten_cons,
      List.length_append, ← hRest.consumed]
    rfl
  unreadable_iff := hRest.unreadable_iff

/- A last page ends a showing. -/
theorem isShowing_last
    (total shown : Nat)
    (page : String)
    (input : List UInt8) :
    IsShowing total shown [page] input 0 .finished
      ⟨page, 0, false⟩ where
  went_on := by simp
  ended := rfl
  output := by
    simp [Ending.writes, asked, Write.text]
  consumed := rfl
  unreadable_iff := by simp

/- A reply that is no text ends a showing at its question. -/
theorem isShowing_unreadable
    (hReply : textOf? (Utf8.firstLine input).1 = none) :
    IsShowing total shown (page :: next :: pages) input 0
      .unreadable
      ⟨page ++ question (shown + 1) total,
        (Utf8.firstLine input).1.length, true⟩ := by
  have hInput : input ≠ [] := by
    rintro rfl
    rw [Utf8.firstLine, textOf?_nil] at hReply
    cases hReply
  have hLines := Utf8.lines_eq_cons hInput
  refine
    { went_on := by simp
      ended := ?ended
      output := ?output
      consumed := ?consumed
      unreadable_iff := by simp }
  case ended =>
    rw [hLines]
    exact ⟨by simp, _, rfl, hReply⟩
  case output =>
    simp [Ending.writes, asked, Write.text]
  case consumed =>
    simp [hLines, Ending.read]

/- Without a reply, or with a letter, a showing stops. -/
theorem isShowing_stopped
    {text : String}
    (hText : textOf? (Utf8.firstLine input).1 = some text)
    (hStop :
      (Utf8.firstLine input).1 = [] ∨
        Text.trim text = "q") :
    IsShowing total shown (page :: next :: pages) input 0
      .stopped
      ⟨page ++ question (shown + 1) total ++ "\n",
        (Utf8.firstLine input).1.length, false⟩ := by
  refine
    { went_on := by simp
      ended := ?ended
      output := ?output
      consumed := ?consumed
      unreadable_iff := by simp }
  case ended =>
    refine ⟨by simp, ?_⟩
    intro reply hFirst
    by_cases hInput : input = []
    · subst hInput
      cases hFirst
    · rw [Utf8.lines_eq_cons hInput, List.getElem?_cons_zero,
        Option.some.injEq] at hFirst
      rw [← hFirst]
      have hSome := Utf8.firstLine_ne_nil hInput
      exact ⟨text, hText, hStop.resolve_left hSome⟩
  case output =>
    simp [Ending.writes, asked, Write.text,
      String.append_assoc]
  case consumed =>
    by_cases hInput : input = []
    · subst hInput
      rfl
    · simp [Utf8.lines_eq_cons hInput, Ending.read]

end Paging

end LineShell

------------------------------------------------------------
-- Whole showings
------------------------------------------------------------

namespace LineShell

namespace Paging

/- Pages are shown up to some reply, or up to the last one. -/
theorem exists_isShowing
    (total shown : Nat)
    (pages : List String)
    (input : List UInt8) :
    ∃ answered ending,
      IsShowing total shown pages input answered ending
        (showPages total shown pages input) := by
  induction pages generalizing shown input with
  | nil =>
      exact ⟨0, .finished,
        { went_on := by simp
          ended := rfl
          output := rfl
          consumed := rfl
          unreadable_iff := by simp [showPages] }⟩
  | cons page pages ih =>
      cases pages with
      | nil =>
          exact ⟨0, .finished,
            isShowing_last total shown page input⟩
      | cons next pages =>
          rw [showPages_cons]
          cases hText : textOf? (Utf8.firstLine input).1 with
          | none =>
              exact ⟨0, .unreadable,
                isShowing_unreadable hText⟩
          | some text =>
              dsimp only
              split
              case isTrue hStop =>
                exact ⟨0, .stopped,
                  isShowing_stopped hText hStop⟩
              case isFalse hGo =>
                rcases not_or.1 hGo with ⟨hSome, hTrim⟩
                have hInput : input ≠ [] := by
                  rintro rfl
                  exact hSome rfl
                rcases ih (shown + 1)
                    (Utf8.firstLine input).2 with
                  ⟨answered, ending, hRest⟩
                exact ⟨answered + 1, ending,
                  hRest.after hInput ⟨text, hText, hTrim⟩⟩

/- Questions come before the last page, and tell the number. -/
theorem question_mem_asked
    {total shown number last : Nat}
    {pages : List String}
    (hMem :
      Write.question number last ∈ asked total shown pages) :
    number ≤ shown + pages.length ∧ last = total := by
  induction pages generalizing shown with
  | nil => cases hMem
  | cons page pages ih =>
      rw [asked, List.mem_cons, List.mem_cons] at hMem
      rw [List.length_cons]
      rcases hMem with hPage | hQuestion | hLater
      · cases hPage
      · cases hQuestion
        exact ⟨by omega, rfl⟩
      · have hBound := ih hLater
        exact ⟨by omega, hBound.2⟩

theorem pages_asked
    (total shown : Nat)
    (pages : List String) :
    (asked total shown pages).filterMap (·.page?) = pages := by
  induction pages generalizing shown with
  | nil => rfl
  | cons page pages ih =>
      exact congrArg (page :: ·) (ih (shown + 1))

variable
    {pages : List String}
    {input : List UInt8}
    {answered : Nat}
    {ending : Ending}
    {showing : Showing}

/- Where there is no other page there is no question. -/
theorem IsShowing.lt_of_question_mem
    (hShowing :
      IsShowing pages.length 0 pages input answered ending
        showing)
    {number last : Nat}
    (hMem :
      Write.question number last ∈
        ending.writes pages.length 0 pages answered) :
    number < pages.length ∧ last = pages.length := by
  have hDue := hShowing.ended
  cases ending with
  | finished =>
      rw [Ending.IsDue] at hDue
      rcases List.mem_append.1 hMem with hAsked | hPage
      · have hBound := question_mem_asked hAsked
        rw [List.length_take] at hBound
        -- Of no pages none is asked about.
        have hSome : pages ≠ [] := by
          rintro rfl
          simp [asked] at hAsked
        have hPos := List.length_pos_iff.2 hSome
        exact ⟨by omega, hBound.2⟩
      · rcases List.mem_map.1 hPage with ⟨page, _, hPage⟩
        cases hPage
  | stopped =>
      rcases List.mem_append.1 hMem with hAsked | hNewline
      · have hBound := question_mem_asked hAsked
        have hLess := hDue.1
        rw [List.length_take] at hBound
        exact ⟨by omega, hBound.2⟩
      · simp at hNewline
  | unreadable =>
      have hBound := question_mem_asked hMem
      have hLess := hDue.1
      rw [List.length_take] at hBound
      exact ⟨by omega, hBound.2⟩

/- Fewer than two pages are shown without a reply. -/
theorem IsShowing.consumed_eq_zero
    (hShowing :
      IsShowing pages.length 0 pages input answered ending
        showing)
    (hFew : pages.length < 2) :
    showing.consumed = 0 := by
  have hDue := hShowing.ended
  rw [hShowing.consumed]
  cases ending with
  | finished =>
      have hNone : answered = 0 := by
        rw [Ending.IsDue] at hDue
        omega
      rw [hNone]
      rfl
  | stopped =>
      have hLess := hDue.1
      omega
  | unreadable =>
      have hLess := hDue.1
      omega

/- All that was read are the first replies. -/
theorem IsShowing.take_consumed
    (hShowing :
      IsShowing pages.length 0 pages input answered ending
        showing) :
    input.take showing.consumed =
      ((Utf8.lines input).take
        (ending.read answered)).flatten := by
  have hWhole :
      input =
        ((Utf8.lines input).take
            (ending.read answered)).flatten ++
          ((Utf8.lines input).drop
            (ending.read answered)).flatten := by
    rw [← List.flatten_append, List.take_append_drop,
      Utf8.flatten_lines]
  conv =>
    lhs
    arg 2
    rw [hWhole]
  rw [hShowing.consumed, List.take_left]

/- Where a showing finished it has written all pages. -/
theorem Ending.pages_writes_finished
    (total shown answered : Nat)
    (pages : List String) :
    (Ending.finished.writes total shown pages
        answered).filterMap (·.page?) =
      pages := by
  have hPages :
      ∀ others : List String,
        (others.map Write.page).filterMap (·.page?) =
          others := by
    intro others
    rw [List.filterMap_map]
    exact List.filterMap_some
  rw [Ending.writes, List.filterMap_append, pages_asked,
    hPages, List.take_append_drop]

/-
  A text is shown page by page, with a question after every
  page but the last. Each question reads one reply, and the
  replies alone decide how many pages are written.
-/
theorem page_asks_between_pages
    (text : String)
    (lines : Nat)
    (input : List UInt8) :
    ∃ answered ending,
      IsShowing (paginate text lines).length 0
          (paginate text lines) input answered ending
          (page text lines input) ∧
        input.take (page text lines input).consumed =
          ((Utf8.lines input).take
            (ending.read answered)).flatten ∧
        ((paginate text lines).length < 2 →
          (page text lines input).consumed = 0) ∧
        (∀ number last,
          Write.question number last ∈
              ending.writes (paginate text lines).length 0
                (paginate text lines) answered →
            number < (paginate text lines).length ∧
              last = (paginate text lines).length) ∧
        (ending = .finished →
          String.join
              ((ending.writes (paginate text lines).length 0
                (paginate text lines) answered).filterMap
                  (·.page?)) =
            text) := by
  rcases exists_isShowing (paginate text lines).length 0
      (paginate text lines) input with
    ⟨answered, ending, hShowing⟩
  refine ⟨answered, ending, hShowing,
    hShowing.take_consumed, hShowing.consumed_eq_zero, ?_,
    ?_⟩
  · intro number last hMem
    exact hShowing.lt_of_question_mem hMem
  · rintro rfl
    rw [Ending.pages_writes_finished, join_paginate]

example :
    page "a\nb\nc\n" 1 "\nq".toUTF8.data.toList =
      ⟨"a\n--More-- (1/3)b\n--More-- (2/3)\n", 2, false⟩ := by
  decide

end Paging

end LineShell

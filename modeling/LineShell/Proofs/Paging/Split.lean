import LineShell.Paging

/-
  Pages as a split of a text. All pages but the last are
  full, which means that they hold the given number of lines
  and end with the last of them. There is only one split of
  a text into pages, and the loop over the text finds it.

  Key definitions include:
    * `Paging.newlines`
    * `Paging.lineCount`
    * `Paging.IsFull`
    * `Paging.IsPaging`

  Correctness is proven by:
    * `Paging.paginate_append`
    * `Paging.isPaging_paginate`
    * `Paging.IsPaging.eq_paginate`
    * `Paging.length_paginate`
    * `Paging.paginate_is_only_split`
-/

------------------------------------------------------------
-- Lines and pages
------------------------------------------------------------

namespace LineShell

namespace Paging

/- The number of newlines in a text. -/
def newlines
    (text : String) : Nat :=
  text.toList.count '\n'

/- A text ends in a newline. -/
def EndsLine
    (text : String) : Prop :=
  text.toList.getLast? = some '\n'

instance
    (text : String) :
    Decidable (EndsLine text) := by
  unfold EndsLine
  infer_instance

/-
  The number of lines in a text. What stands behind the last
  newline is a line as well, unless nothing does.
-/
def lineCount
    (text : String) : Nat :=
  newlines text +
    if text = "" ∨ EndsLine text then 0 else 1

/- A page on which no line is missing. -/
structure IsFull
    (lines : Nat)
    (page : String) : Prop where
  newlines_eq : newlines page = lines
  ends_line : EndsLine page

/-
  Pages into which a text is split: none is empty, all but
  the last are full, and the last is full or holds fewer
  newlines.
-/
structure IsPaging
    (lines : Nat)
    (text : String)
    (pages : List String) : Prop where
  joined : String.join pages = text
  some_text : ∀ page ∈ pages, page ≠ ""
  full : ∀ page ∈ pages.dropLast, IsFull lines page
  last :
    ∀ page,
      pages.getLast? = some page →
        newlines page ≤ lines ∧
          (newlines page = lines → EndsLine page)

variable
    {lines : Nat}
    {page : String}

theorem newlines_append
    (first second : String) :
    newlines (first ++ second) =
      newlines first + newlines second := by
  unfold newlines
  rw [String.toList_append, List.count_append]

/- A text ends as its last part does. -/
theorem endsLine_append
    (first : String)
    {second : String}
    (hSecond : second ≠ "") :
    EndsLine (first ++ second) ↔ EndsLine second := by
  unfold EndsLine
  rw [String.toList_append, List.getLast?_append]
  cases hLast : second.toList.getLast? with
  | none =>
      exact absurd
        (String.toList_eq_nil_iff.1
          (List.getLast?_eq_none_iff.1 hLast)) hSecond
  | some c => rfl

/- A text that ends in a newline holds one. -/
theorem newlines_pos_of_endsLine
    (hEnd : EndsLine page) :
    0 < newlines page :=
  List.count_pos_iff.2 (List.mem_of_getLast? hEnd)

theorem IsFull.ne_empty
    (hFull : IsFull lines page) :
    page ≠ "" := by
  rintro rfl
  exact absurd hFull.ends_line (by decide)

end Paging

end LineShell

------------------------------------------------------------
-- The loop over a text
------------------------------------------------------------

namespace LineShell

namespace Paging

variable
    {lines missing : Nat}
    {begun : List Char}

/- What ends before the last missing line is one page. -/
theorem pagesFrom_of_count_lt
    {piece : List Char}
    (hFew : missing = 0 ∨ piece.count '\n' < missing)
    (hSome : begun ≠ [] ∨ piece ≠ []) :
    pagesFrom lines begun missing piece =
      [String.ofList (begun.reverse ++ piece)] := by
  induction piece generalizing begun missing with
  | nil =>
      cases begun with
      | nil => simp at hSome
      | cons c begun =>
          rw [pagesFrom, List.append_nil]
          simp
  | cons c rest ih =>
      have hText :
          (c :: begun).reverse ++ rest =
            begun.reverse ++ c :: rest := by
        simp
      have hBegun : c :: begun ≠ [] ∨ rest ≠ [] :=
        Or.inl (List.cons_ne_nil c begun)
      rw [List.count_cons] at hFew
      by_cases hNewline : c = '\n'
      · subst hNewline
        rw [beq_self_eq_true, if_pos rfl] at hFew
        rw [pagesFrom, if_neg (by omega), if_pos rfl,
          ih (by omega) hBegun, hText]
      · rw [if_neg (by simpa using hNewline),
          Nat.add_zero] at hFew
        rw [pagesFrom, if_neg (fun hBoth => hNewline hBoth.1),
          if_neg hNewline, ih hFew hBegun, hText]

/- The last missing line ends the page. -/
theorem pagesFrom_of_count_eq
    {front : List Char}
    (hFront : front.count '\n' + 1 = missing)
    (rest : List Char) :
    pagesFrom lines begun missing (front ++ '\n' :: rest) =
      String.ofList (begun.reverse ++ (front ++ ['\n'])) ::
        pagesFrom lines [] lines rest := by
  induction front generalizing begun missing with
  | nil =>
      have hOne : missing = 1 := by
        rw [← hFront]
        rfl
      rw [List.nil_append, pagesFrom,
        if_pos ⟨rfl, hOne⟩, List.reverse_cons]
      rfl
  | cons c front ih =>
      have hText :
          (c :: begun).reverse ++ (front ++ ['\n']) =
            begun.reverse ++ (c :: front ++ ['\n']) := by
        simp
      rw [List.count_cons] at hFront
      rw [List.cons_append]
      by_cases hNewline : c = '\n'
      · subst hNewline
        rw [beq_self_eq_true, if_pos rfl] at hFront
        rw [pagesFrom, if_neg (by omega), if_pos rfl,
          ih (by omega), hText]
      · rw [if_neg (by simpa using hNewline),
          Nat.add_zero] at hFront
        rw [pagesFrom, if_neg (fun hBoth => hNewline hBoth.1),
          if_neg hNewline, ih hFront, hText]

variable
    {page text : String}

theorem paginate_empty
    (lines : Nat) :
    paginate "" lines = [] := by
  unfold paginate
  rfl

/- A text without enough lines for a page is one page. -/
theorem paginate_of_newlines_lt
    (hSome : text ≠ "")
    (hFew : lines = 0 ∨ newlines text < lines) :
    paginate text lines = [text] := by
  unfold paginate
  rw [pagesFrom_of_count_lt hFew]
  · simp
  · exact Or.inr (mt String.toList_eq_nil_iff.1 hSome)

/- A full page at the start of a text is its first page. -/
theorem paginate_append
    (hFull : IsFull lines page)
    (rest : String) :
    paginate (page ++ rest) lines =
      page :: paginate rest lines := by
  rcases List.getLast?_eq_some_iff.1 hFull.ends_line with
    ⟨front, hPage⟩
  have hCount : front.count '\n' + 1 = lines := by
    rw [← hFull.newlines_eq, newlines, hPage,
      List.count_append]
    rfl
  have hText :
      (page ++ rest).toList =
        front ++ '\n' :: rest.toList := by
    rw [String.toList_append, hPage, List.append_assoc]
    rfl
  unfold paginate
  rw [hText, pagesFrom_of_count_eq hCount, ← hPage]
  simp

end Paging

end LineShell

------------------------------------------------------------
-- The only split
------------------------------------------------------------

namespace LineShell

namespace Paging

/- Characters with enough newlines start with a full row. -/
theorem exists_front
    {lines : Nat}
    (hLines : 0 < lines)
    {chars : List Char}
    (hMany : lines ≤ chars.count '\n') :
    ∃ front rest,
      chars = front ++ '\n' :: rest ∧
        front.count '\n' + 1 = lines := by
  induction chars generalizing lines with
  | nil =>
      rw [List.count_nil] at hMany
      omega
  | cons c chars ih =>
      rw [List.count_cons] at hMany
      by_cases hNewline : c = '\n'
      · subst hNewline
        rw [beq_self_eq_true, if_pos rfl] at hMany
        by_cases hOne : lines = 1
        · exact ⟨[], chars, rfl, hOne.symm⟩
        · have hFewer : 0 < lines - 1 := by omega
          have hEnough : lines - 1 ≤ chars.count '\n' := by
            omega
          rcases ih hFewer hEnough with
            ⟨front, rest, rfl, hCount⟩
          refine ⟨'\n' :: front, rest, rfl, ?_⟩
          rw [List.count_cons_self, hCount]
          omega
      · rw [if_neg (by simpa using hNewline),
          Nat.add_zero] at hMany
        rcases ih hLines hMany with
          ⟨front, rest, rfl, hCount⟩
        refine ⟨c :: front, rest, rfl, ?_⟩
        rw [List.count_cons_of_ne hNewline]
        exact hCount

variable
    {lines : Nat}
    {page text : String}

/- A text holds too few lines, or it starts with a page. -/
theorem newlines_lt_or_exists_full
    (hLines : 0 < lines)
    (text : String) :
    newlines text < lines ∨
      ∃ page rest,
        text = page ++ rest ∧ IsFull lines page := by
  rcases Nat.lt_or_ge (newlines text) lines with
    hFew | hMany
  · exact Or.inl hFew
  · rcases exists_front hLines hMany with
      ⟨front, rest, hText, hCount⟩
    refine Or.inr
      ⟨String.ofList (front ++ ['\n']),
        String.ofList rest, ?_, ?_, ?_⟩
    · apply String.toList_inj.1
      rw [hText]
      simp
    · rw [newlines, String.toList_ofList,
        List.count_append, ← hCount]
      rfl
    · rw [EndsLine, String.toList_ofList,
        List.getLast?_concat]

/-
  What holds of the empty text, of texts with too few lines
  and of every text behind a full page holds of all texts.
-/
theorem induction_on_pages
    {motive : String → Prop}
    (hLines : 0 < lines)
    (empty : motive "")
    (short :
      ∀ text,
        text ≠ "" → newlines text < lines → motive text)
    (full :
      ∀ page rest,
        IsFull lines page →
          motive rest → motive (page ++ rest))
    (text : String) :
    motive text := by
  -- What is behind a page is shorter by that page.
  induction hLength : text.toList.length
    using Nat.strongRecOn generalizing text with
  | ind length ih =>
      rcases newlines_lt_or_exists_full hLines text with
        hFew | ⟨page, rest, rfl, hFull⟩
      · by_cases hEmpty : text = ""
        · rw [hEmpty]
          exact empty
        · exact short text hEmpty hFew
      · have hPage : page.toList ≠ [] :=
          mt String.toList_eq_nil_iff.1 hFull.ne_empty
        have hShorter : rest.toList.length < length := by
          rw [← hLength, String.toList_append,
            List.length_append]
          have hPos := List.length_pos_iff.2 hPage
          omega
        exact full page rest hFull
          (ih rest.toList.length hShorter rest rfl)

/- A full page may stand before any pages. -/
theorem IsPaging.cons
    {rest : String}
    {pages : List String}
    (hFull : IsFull lines page)
    (hPages : IsPaging lines rest pages) :
    IsPaging lines (page ++ rest) (page :: pages) where
  joined := by
    rw [String.join_cons, hPages.joined]
  some_text := by
    intro other hMem
    rcases List.mem_cons.1 hMem with rfl | hMem
    · exact hFull.ne_empty
    · exact hPages.some_text other hMem
  full := by
    intro other hMem
    cases pages with
    | nil => simp at hMem
    | cons next pages =>
        rw [List.dropLast_cons_cons] at hMem
        rcases List.mem_cons.1 hMem with rfl | hMem
        · exact hFull
        · exact hPages.full other hMem
  last := by
    intro other hLast
    cases pages with
    | nil =>
        rw [List.getLast?_singleton, Option.some.injEq]
          at hLast
        subst hLast
        exact ⟨Nat.le_of_eq hFull.newlines_eq,
          fun _ => hFull.ends_line⟩
    | cons next pages =>
        rw [List.getLast?_cons_cons] at hLast
        exact hPages.last other hLast

/- The pages behind the first one. -/
theorem IsPaging.tail
    {next : String}
    {pages : List String}
    (hPages : IsPaging lines text (page :: next :: pages)) :
    IsPaging lines (String.join (next :: pages))
      (next :: pages) where
  joined := rfl
  some_text := by
    intro other hMem
    exact hPages.some_text other
      (List.mem_cons_of_mem page hMem)
  full := by
    intro other hMem
    apply hPages.full other
    rw [List.dropLast_cons_cons]
    exact List.mem_cons_of_mem page hMem
  last := by
    intro other hLast
    apply hPages.last other
    rw [List.getLast?_cons_cons]
    exact hLast

/- The pages of a text are a split of it. -/
theorem isPaging_paginate
    (hLines : 0 < lines)
    (text : String) :
    IsPaging lines text (paginate text lines) := by
  induction text using induction_on_pages hLines with
  | empty =>
      rw [paginate_empty]
      exact
        { joined := rfl
          some_text := by simp
          full := by simp
          last := by simp }
  | short text hSome hFew =>
      rw [paginate_of_newlines_lt hSome (Or.inr hFew)]
      refine
        { joined := by simp
          some_text := by simpa using hSome
          full := by simp
          last := ?_ }
      intro page hLast
      rw [List.getLast?_singleton, Option.some.injEq]
        at hLast
      subst hLast
      exact ⟨Nat.le_of_lt hFew,
        fun hEq => absurd hEq (Nat.ne_of_lt hFew)⟩
  | full page rest hFull ih =>
      rw [paginate_append hFull]
      exact ih.cons hFull

/- There is no other split of a text into pages. -/
theorem IsPaging.eq_paginate
    {pages : List String}
    (hPages : IsPaging lines text pages) :
    pages = paginate text lines := by
  induction pages generalizing text with
  | nil =>
      rw [← hPages.joined, String.join_nil, paginate_empty]
  | cons page pages ih =>
      rw [← hPages.joined, String.join_cons]
      cases pages with
      | nil =>
          have hLast := hPages.last page rfl
          have hSome := hPages.some_text page (by simp)
          rw [String.join_nil]
          rcases Nat.lt_or_eq_of_le hLast.1 with
            hFew | hMany
          · rw [String.append_empty,
              paginate_of_newlines_lt hSome (Or.inr hFew)]
          · rw [paginate_append ⟨hMany, hLast.2 hMany⟩,
              paginate_empty]
      | cons next pages =>
          have hFull : IsFull lines page :=
            hPages.full page (by simp)
          rw [paginate_append hFull]
          exact congrArg (page :: ·) (ih hPages.tail)

/- Pages put together again are the text. -/
theorem join_paginate
    (text : String)
    (lines : Nat) :
    String.join (paginate text lines) = text := by
  by_cases hLines : lines = 0
  · by_cases hEmpty : text = ""
    · rw [hEmpty, paginate_empty]
      rfl
    · rw [paginate_of_newlines_lt hEmpty (Or.inl hLines)]
      simp
  · have hPos := Nat.pos_of_ne_zero hLines
    exact (isPaging_paginate hPos text).joined

/- A full page adds its lines to those behind it. -/
theorem lineCount_append
    (hFull : IsFull lines page)
    (rest : String) :
    lineCount (page ++ rest) = lines + lineCount rest := by
  unfold lineCount
  rw [newlines_append, hFull.newlines_eq, Nat.add_assoc]
  by_cases hRest : rest = ""
  · subst hRest
    rw [String.append_empty, if_pos (Or.inl rfl),
      if_pos (Or.inr hFull.ends_line)]
  · have hBoth : page ++ rest ≠ "" :=
      fun hEmpty =>
        hRest (String.append_eq_empty_iff.1 hEmpty).2
    simp only [hRest, hBoth, endsLine_append page hRest,
      false_or]

/- A text with too few newlines has no more than a page. -/
theorem lineCount_of_newlines_lt
    (hSome : text ≠ "")
    (hFew : newlines text < lines) :
    0 < lineCount text ∧ lineCount text ≤ lines := by
  unfold lineCount
  by_cases hEnd : EndsLine text
  · have hPos := newlines_pos_of_endsLine hEnd
    rw [if_pos (Or.inr hEnd)]
    omega
  · rw [if_neg (by simp [hSome, hEnd])]
    omega

/- The lines of a text by those on a page, rounded up. -/
theorem length_paginate
    (hLines : 0 < lines)
    (text : String) :
    (paginate text lines).length =
      (lineCount text + lines - 1) / lines := by
  induction text using induction_on_pages hLines with
  | empty =>
      have hNone : lineCount "" = 0 := rfl
      rw [paginate_empty, hNone, Nat.zero_add,
        Nat.div_eq_of_lt (Nat.sub_one_lt_of_lt hLines)]
      rfl
  | short text hSome hFew =>
      rcases lineCount_of_newlines_lt hSome hFew with
        ⟨hPos, hLe⟩
      have hMore :
          lineCount text + lines - 1 =
            lineCount text - 1 + lines := by
        omega
      rw [paginate_of_newlines_lt hSome (Or.inr hFew),
        hMore, Nat.add_div_right _ hLines,
        Nat.div_eq_of_lt (by omega)]
      rfl
  | full page rest hFull ih =>
      have hMore :
          lines + lineCount rest + lines - 1 =
            lineCount rest + lines - 1 + lines := by
        omega
      rw [paginate_append hFull, List.length_cons, ih,
        lineCount_append hFull, hMore,
        Nat.add_div_right _ hLines]

/-
  The pages of a text are the only split of it into pages of
  the given number of lines. Where no number is given, the
  whole text is one page.
-/
theorem paginate_is_only_split
    (text : String)
    (lines : Nat) :
    (0 < lines →
      (∀ pages,
        IsPaging lines text pages ↔
          pages = paginate text lines) ∧
        (paginate text lines).length =
          (lineCount text + lines - 1) / lines) ∧
      paginate text 0 =
        if text = "" then [] else [text] := by
  constructor
  · intro hLines
    refine ⟨?_, length_paginate hLines text⟩
    intro pages
    constructor
    · intro hPages
      exact hPages.eq_paginate
    · rintro rfl
      exact isPaging_paginate hLines text
  · split
    case isTrue hEmpty =>
      rw [hEmpty, paginate_empty]
    case isFalse hSome =>
      exact paginate_of_newlines_lt hSome (Or.inl rfl)

example : paginate "a\nb\nc\n\nd" 2 = ["a\nb\n", "c\n\n", "d"] := by
  decide

end Paging

end LineShell

import LineShell.Command.Reading
import LineShell.Proofs.Command.Making
import LineShell.Proofs.FileSystem.Removing
import LineShell.Proofs.Session.Input

/-
  Commands that take their arguments in turn. To remove or
  make what two rows of arguments name is to do so for the
  first row, and then for the second one if that succeeded;
  to read them is to read both. What a removal that fails
  leaves is what the arguments before it have left.

  Key definitions include:
    * `Answer.andThen`
    * `Answer.IsRemoval`
    * `Answer.IsReading`
    * `Call.WorksInTurn`

  Correctness is proven by:
    * `FileManagement.changeEach_append_andThen`
    * `FileManagement.changeEach_takes`
    * `Reading.readEach_append_eq_ok_iff`
    * `Reading.readEach_cases`
    * `Call.arguments_work_in_turn`
-/

------------------------------------------------------------
-- One row after the other
------------------------------------------------------------

namespace LineShell

/- An answer, and the next one if there was no fault. -/
def Answer.andThen
    (answer : Answer)
    (next : FileSystem → Answer) : Answer :=
  match answer.result with
  | .ok _ => next answer.files
  | .error _ => answer

namespace FileManagement

/- Two rows of changes are made one after the other. -/
theorem changeEach_append_andThen
    (change : FileSystem → String → Progress)
    (front back : List String)
    (files : FileSystem) :
    changeEach change (front ++ back) files =
      (changeEach change front files).andThen
        (changeEach change back) := by
  induction front generalizing files with
  | nil => rfl
  | cons path rest ih =>
      rw [List.cons_append]
      cases hFault : (change files path).fault with
      | none =>
          rw [changeEach_cons_of_done hFault,
            changeEach_cons_of_done hFault, ih]
      | some cause =>
          rw [changeEach_cons_of_fault hFault,
            changeEach_cons_of_fault hFault]
          rfl

/-
  However its arguments are cut in two, a command that
  changes each of them changes those in front first.
-/
theorem run_forEachPath_of_append
    (name summary param : String)
    (change : FileSystem → String → Progress)
    {call : Call}
    {front back : List String}
    (hSplit : call.args = front ++ back)
    (files : FileSystem) :
    let command := forEachPath name summary param change
    command.run call files =
      (command.run { call with args := front }
          files).andThen
        (command.run { call with args := back }) := by
  have hRow :=
    changeEach_append_andThen change
      (front.map call.resolve) (back.map call.resolve) files
  rw [← List.map_append, ← hSplit] at hRow
  exact hRow

end FileManagement

end LineShell

------------------------------------------------------------
-- Rows of removals
------------------------------------------------------------

namespace LineShell

namespace FileManagement

open FileSystem (TakenEach Takes)

variable
    {operation :
      FileSystem → String → Except FileError FileSystem}
    {directory : Bool}

/-
  All paths of a row are taken, or those before the first
  one that cannot be taken.
-/
theorem changeEach_takes
    (hTakes : Takes operation directory)
    (paths : List String)
    (files : FileSystem) :
    (∃ after,
      TakenEach directory files paths after ∧
        changeEach (single operation) paths files =
          .plain after none) ∨
      ∃ front path back before cause,
        paths = front ++ path :: back ∧
          TakenEach directory files front before ∧
          (∀ place node,
            ¬ before.IsTakeable directory path place
              node) ∧
          changeEach (single operation) paths files =
            .fail before (.atPath path cause) := by
  induction paths generalizing files with
  | nil => exact Or.inl ⟨files, .nil, rfl⟩
  | cons path rest ih =>
      by_cases hSome :
        ∃ place node,
          files.IsTakeable directory path place node
      case pos =>
        rcases hSome with ⟨place, node, hTake⟩
        rcases hTakes.taken hTake with
          ⟨next, hNext, hWithout⟩
        have hProgress :
            single operation files path = ⟨next, none⟩ := by
          simp [single, hNext]
        have hStep :
            changeEach (single operation) (path :: rest)
                files =
              changeEach (single operation) rest next := by
          rw [changeEach_cons_of_done (by rw [hProgress]),
            hProgress]
        rw [hStep]
        rcases ih next with
          ⟨after, hRest, hDone⟩ |
          ⟨front, other, back, before, cause, rfl, hFront,
            hNone, hFailed⟩
        · exact Or.inl
            ⟨after, .cons hTake hWithout hRest, hDone⟩
        · exact Or.inr
            ⟨path :: front, other, back, before, cause, rfl,
              .cons hTake hWithout hFront, hNone, hFailed⟩
      case neg =>
        have hNone :
            ∀ place node,
              ¬ files.IsTakeable directory path place
                node := by
          intro place node hTake
          exact hSome ⟨place, node, hTake⟩
        rcases hTakes.refused hNone with ⟨cause, hCause⟩
        have hProgress :
            single operation files path =
              ⟨files, some cause⟩ := by
          simp [single, hCause]
        refine Or.inr
          ⟨[], path, rest, files, cause, rfl, .nil, hNone,
            ?_⟩
        rw [changeEach_cons_of_fault (by rw [hProgress]),
          hProgress]

end FileManagement

/-
  An answer to the wish to take away what the arguments of a
  call name, of the directories or of all the others. It is
  done with some of the arguments, in their order: each one
  named such an entry when its turn came, and nothing else is
  gone. The first one of the rest, if any, names none; it is
  the one that is reported.
-/
structure Answer.IsRemoval
    (answer : Answer)
    (directory : Bool)
    (call : Call)
    (files : FileSystem)
    (done rest : List String) : Prop where
  args : call.args = done ++ rest
  taken :
    files.TakenEach directory (done.map call.resolve)
      answer.files
  gone :
    ∀ location node,
      files.get? location = some node →
        answer.files.get? location = none →
          node.isDirectory = directory ∧
            ∃ raw ∈ done,
              files.NamesEntry (call.resolve raw) location
                node
  kept :
    ∀ location node,
      answer.files.get? location = some node →
        files.get? location = some node
  result :
    (rest = [] ∧ answer.result = .ok none) ∨
      ∃ raw others cause,
        rest = raw :: others ∧
          (∀ place node,
            ¬ answer.files.IsTakeable directory
              (call.resolve raw) place node) ∧
          answer.result =
            .error (.atPath (call.resolve raw) cause)

namespace FileManagement

open FileSystem (TakenEach Takes)

variable
    {operation :
      FileSystem → String → Except FileError FileSystem}
    {directory : Bool}

/- What is gone was named by one of the arguments. -/
theorem exists_argument_of_gone
    {call : Call}
    {done : List String}
    {files after : FileSystem}
    (hTaken :
      TakenEach directory files (done.map call.resolve)
        after)
    (location : Location)
    (node : Node)
    (hNode : files.get? location = some node)
    (hGone : after.get? location = none) :
    node.isDirectory = directory ∧
      ∃ raw ∈ done,
        files.NamesEntry (call.resolve raw) location
          node := by
  rcases hTaken.exists_named hNode hGone with
    ⟨hKind, path, hPath, hNamed⟩
  rcases List.mem_map.1 hPath with ⟨raw, hRaw, rfl⟩
  exact ⟨hKind, raw, hRaw, hNamed⟩

/- A row of removals is such an answer. -/
theorem exists_isRemoval
    (hTakes : Takes operation directory)
    (call : Call)
    (files : FileSystem) :
    ∃ done rest,
      (changeEach (single operation)
          (call.args.map call.resolve) files).IsRemoval
        directory call files done rest := by
  rcases changeEach_takes hTakes
      (call.args.map call.resolve) files with
    ⟨after, hTaken, hRun⟩ |
    ⟨paths, path, others, before, cause, hPaths, hTaken,
      hNone, hRun⟩
  · refine ⟨call.args, [], ?_⟩
    rw [hRun]
    exact
      ⟨(List.append_nil _).symm, hTaken,
        exists_argument_of_gone hTaken, hTaken.keeps,
        Or.inl ⟨rfl, rfl⟩⟩
  · rcases List.map_eq_append_iff.1 hPaths with
      ⟨done, rest, hArgs, rfl, hRest⟩
    rcases List.map_eq_cons_iff.1 hRest with
      ⟨raw, back, rfl, rfl, hBack⟩
    refine ⟨done, raw :: back, ?_⟩
    rw [hRun]
    exact
      ⟨hArgs, hTaken, exists_argument_of_gone hTaken,
        hTaken.keeps,
        Or.inr ⟨raw, back, cause, rfl, hNone, rfl⟩⟩

end FileManagement

end LineShell

------------------------------------------------------------
-- Rows of texts
------------------------------------------------------------

namespace LineShell

/-
  An answer to the wish to read what the arguments of a call
  name. It has the texts of all of them in their order, or
  it has no text and reports the first one that cannot be
  read.
-/
structure Answer.IsReading
    (answer : Answer)
    (call : Call)
    (files : FileSystem) : Prop where
  files_eq : answer.files = files
  result :
    (∃ contents : List ByteArray,
      call.args.map
          (fun raw => files.readFile (call.resolve raw)) =
          contents.map .ok ∧
        answer.result =
          .ok
            (some
              (String.join
                (contents.map Utf8.decodeLossy)))) ∨
      ∃ front raw back cause,
        call.args = front ++ raw :: back ∧
          (∀ earlier ∈ front,
            ∃ bytes,
              files.readFile (call.resolve earlier) =
                .ok bytes) ∧
          files.readFile (call.resolve raw) = .error cause ∧
          answer.result =
            .error (.atPath (call.resolve raw) cause)

namespace Reading

variable
    {files : FileSystem}
    {path : String}
    {paths : List String}

theorem readText_of_ok
    {bytes : ByteArray}
    (hRead : files.readFile path = .ok bytes) :
    readText files path = .ok (Utf8.decodeLossy bytes) := by
  rw [readText, hRead]

theorem readText_of_error
    {cause : FileError}
    (hRead : files.readFile path = .error cause) :
    readText files path = .error (.atPath path cause) := by
  rw [readText, hRead]

/- A row is read if its first file and the others are. -/
theorem readEach_cons_eq_ok_iff
    {text : String} :
    readEach files (path :: paths) = .ok text ↔
      ∃ first others,
        readText files path = .ok first ∧
          readEach files paths = .ok others ∧
          first ++ others = text := by
  rw [readEach]
  cases hFirst : readText files path with
  | error fault => simp [bind, Except.bind]
  | ok first =>
      cases hOthers : readEach files paths with
      | error fault => simp [bind, Except.bind]
      | ok others => simp [bind, Except.bind]

/- Two rows are read if both are, with both of their texts. -/
theorem readEach_append_eq_ok_iff
    (front back : List String)
    {text : String} :
    readEach files (front ++ back) = .ok text ↔
      ∃ first second,
        readEach files front = .ok first ∧
          readEach files back = .ok second ∧
          first ++ second = text := by
  induction front generalizing text with
  | nil => simp [readEach]
  | cons path rest ih =>
      rw [List.cons_append, readEach_cons_eq_ok_iff]
      simp only [ih, readEach_cons_eq_ok_iff]
      constructor
      · rintro
          ⟨head, others, hHead,
            ⟨first, second, hFirst, hSecond, rfl⟩, rfl⟩
        exact
          ⟨head ++ first, second,
            ⟨head, first, hHead, hFirst, rfl⟩, hSecond,
            String.append_assoc⟩
      · rintro
          ⟨joined, second,
            ⟨head, first, hHead, hFirst, rfl⟩, hSecond, rfl⟩
        exact
          ⟨head, first ++ second, hHead,
            ⟨first, second, hFirst, hSecond, rfl⟩,
            String.append_assoc.symm⟩

/- All files of a row are read, or one is the first not to. -/
theorem readEach_cases
    (files : FileSystem)
    (paths : List String) :
    (∃ contents : List ByteArray,
      paths.map files.readFile = contents.map .ok ∧
        readEach files paths =
          .ok
            (String.join (contents.map Utf8.decodeLossy))) ∨
      ∃ front path back cause,
        paths = front ++ path :: back ∧
          (∀ earlier ∈ front,
            ∃ bytes,
              files.readFile earlier = .ok bytes) ∧
          files.readFile path = .error cause ∧
          readEach files paths =
            .error (.atPath path cause) := by
  induction paths with
  | nil => exact Or.inl ⟨[], rfl, rfl⟩
  | cons path rest ih =>
      cases hRead : files.readFile path with
      | error cause =>
          refine Or.inr
            ⟨[], path, rest, cause, rfl, by simp, hRead, ?_⟩
          simp [readEach, readText_of_error hRead, bind,
            Except.bind]
      | ok bytes =>
          have hText := readText_of_ok hRead
          rcases ih with
            ⟨contents, hContents, hRest⟩ |
            ⟨front, other, back, cause, rfl, hFront, hOther,
              hRest⟩
          · refine Or.inl ⟨bytes :: contents, ?_, ?_⟩
            · rw [List.map_cons, List.map_cons, hRead,
                hContents]
            · simp [readEach, hText, hRest, bind,
                Except.bind]
          · refine Or.inr
              ⟨path :: front, other, back, cause, rfl, ?_,
                hOther, ?_⟩
            · rw [List.forall_mem_cons]
              exact ⟨⟨bytes, hRead⟩, hFront⟩
            · rw [readEach, hText, hRest]
              rfl

end Reading

end LineShell

------------------------------------------------------------
-- Arguments in turn
------------------------------------------------------------

namespace LineShell

open FileManagement (rm rmdir mkdir)
open Reading (cat)

/-
  What the arguments of a call are for the commands that
  take any number of them. However they are cut in two, a
  change is the change by the front ones and, if that
  succeeds, by those behind; both have to be readable to be
  read. The commands that remove take away what they are
  done with and nothing else.
-/
structure Call.WorksInTurn
    (call : Call)
    (files : FileSystem) : Prop where
  changes :
    ∀ command ∈ [rm, rmdir, mkdir],
      ∀ front back,
        call.args = front ++ back →
          command.run call files =
            (command.run { call with args := front }
                files).andThen
              (command.run { call with args := back })
  reads :
    ∀ front back,
      call.args = front ++ back →
        front ≠ [] →
          back ≠ [] →
            ∀ text,
              (cat.run call files).result = .ok text ↔
                ∃ first second,
                  (cat.run { call with args := front }
                        files).result =
                      .ok (some first) ∧
                    (cat.run { call with args := back }
                        files).result =
                      .ok (some second) ∧
                    text = some (first ++ second)
  removes :
    ∃ done rest,
      (rm.run call files).IsRemoval false call files done
        rest
  removesDirectories :
    ∃ done rest,
      (rmdir.run call files).IsRemoval true call files done
        rest
  texts : (cat.run call files).IsReading call files

namespace Reading

variable
    {call : Call}

/- With arguments a call reads what they name. -/
theorem run_cat_of_args
    (hArgs : call.args ≠ [])
    (files : FileSystem) :
    cat.run call files =
      ⟨files, [],
        (readEach files (call.args.map call.resolve)).map
          some⟩ :=
  showSource_of_args hArgs "cat" files

theorem result_run_cat_iff
    (hArgs : call.args ≠ [])
    {files : FileSystem}
    {text : Option String} :
    (cat.run call files).result = .ok text ↔
      ∃ read,
        readEach files (call.args.map call.resolve) =
            .ok read ∧
          text = some read := by
  rw [run_cat_of_args hArgs]
  dsimp only
  cases readEach files (call.args.map call.resolve) with
  | error fault => simp [Except.map]
  | ok read => simp [Except.map, eq_comm]

/- A call with arguments reads all of them or no text. -/
theorem isReading_run_cat
    (hArgs : call.args ≠ [])
    (files : FileSystem) :
    (cat.run call files).IsReading call files := by
  rw [run_cat_of_args hArgs]
  refine ⟨rfl, ?_⟩
  dsimp only
  rcases readEach_cases files
      (call.args.map call.resolve) with
    ⟨contents, hContents, hRead⟩ |
    ⟨paths, path, others, cause, hPaths, hFront, hPath,
      hRead⟩
  · refine Or.inl ⟨contents, ?_, by rw [hRead]; rfl⟩
    rw [← hContents, List.map_map, Function.comp_def]
  · rcases List.map_eq_append_iff.1 hPaths with
      ⟨front, rest, hSplit, rfl, hRest⟩
    rcases List.map_eq_cons_iff.1 hRest with
      ⟨raw, back, rfl, rfl, hBack⟩
    refine Or.inr
      ⟨front, raw, back, cause, hSplit, ?_, hPath,
        by rw [hRead]; rfl⟩
    intro earlier hEarlier
    exact hFront _ (List.mem_map_of_mem hEarlier)

end Reading

/-
  A call with arguments does what its arguments do in turn.
-/
theorem Call.arguments_work_in_turn
    (call : Call)
    (files : FileSystem)
    (hArgs : call.args ≠ []) :
    call.WorksInTurn files where
  changes := by
    intro command hCommand front back hSplit
    simp only [List.mem_cons, List.not_mem_nil, or_false]
      at hCommand
    rcases hCommand with rfl | rfl | rfl
    · exact
        FileManagement.run_forEachPath_of_append _ _ _ _
          hSplit files
    · exact
        FileManagement.run_forEachPath_of_append _ _ _ _
          hSplit files
    · exact
        FileManagement.run_forEachPath_of_append _ _ _ _
          hSplit files
  reads := by
    intro front back hSplit hFront hBack text
    rw [Reading.result_run_cat_iff hArgs, hSplit,
      List.map_append]
    simp only [Reading.readEach_append_eq_ok_iff]
    constructor
    · rintro
        ⟨read, ⟨first, second, hFirst, hSecond, rfl⟩, rfl⟩
      exact
        ⟨first, second,
          (Reading.result_run_cat_iff hFront).2
            ⟨first, hFirst, rfl⟩,
          (Reading.result_run_cat_iff hBack).2
            ⟨second, hSecond, rfl⟩,
          rfl⟩
    · rintro ⟨first, second, hFirst, hSecond, rfl⟩
      rcases (Reading.result_run_cat_iff hFront).1 hFirst
        with ⟨_, hReadFirst, hEqFirst⟩
      rcases (Reading.result_run_cat_iff hBack).1 hSecond
        with ⟨_, hReadSecond, hEqSecond⟩
      cases hEqFirst
      cases hEqSecond
      exact
        ⟨first ++ second,
          ⟨first, second, hReadFirst, hReadSecond, rfl⟩,
          rfl⟩
  removes :=
    FileManagement.exists_isRemoval
      FileSystem.takes_removeFile call files
  removesDirectories :=
    FileManagement.exists_isRemoval
      FileSystem.takes_removeDirectory call files
  texts := Reading.isReading_run_cat hArgs files

/-
  A link goes and the file that it leads to stays, since the
  directory between them cannot be removed as a file.
-/
theorem Call.link_goes_before_directory_stays :
    ∃ files : FileSystem,
      let call : Call :=
        ⟨["l", "d", "a"], none, ⟨"/", "/"⟩, [], false⟩
      files.get? [⟨"l", by decide⟩] = some (.link "a") ∧
        call.args ≠ [] ∧
        call.WorksInTurn files ∧
        (rm.run call files).result =
          .error (.atPath "/d" (.refused .isDirectory)) ∧
        (rm.run call files).files.get? [⟨"l", by decide⟩] =
          none ∧
        (rm.run call files).files.readFile "/a" =
          .ok "alpha".toByteArray := by
  let entries : Entries :=
    [([⟨"l", by decide⟩], .link "a"),
      ([⟨"d", by decide⟩], .directory),
      ([⟨"a", by decide⟩], .file "alpha".toByteArray)]
  have hSound : entries.Sound := by decide
  have hArgs : ["l", "d", "a"] ≠ [] := by simp
  exact
    ⟨⟨entries, hSound⟩, rfl, hArgs,
      Call.arguments_work_in_turn _ _ hArgs, rfl, rfl, rfl⟩

end LineShell

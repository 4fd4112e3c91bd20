import LineShell.Proofs.Command.Copying
import LineShell.Proofs.FileSystem.Moving

/-
  What `mv` does. It is all or nothing: a call that fails
  leaves the files as they are, and one that succeeds moves
  the entry that the source names to the place that the
  destination names, with all that lies below it.

  Key definitions include:
    * `FileSystem.MoveRequest`
    * `Answer.IsMove`

  Correctness is proven by:
    * `FileManagement.run_mv_of_canMove`
    * `FileManagement.run_mv_of_not_canMove`
    * `FileManagement.mv_moves_or_keeps`
-/

------------------------------------------------------------
-- Requests
------------------------------------------------------------

namespace LineShell

namespace FileSystem

/-
  What a pair of paths asks to move: the node that the
  source names, from its place to the place that the
  destination names.
-/
structure MoveRequest
    (files : FileSystem)
    (source second target : String)
    (node : Node)
    (place goal : Location) : Prop where
  destination : files.IsDestination source second target
  entry : files.NamesEntry source place node
  goal : files.NamesPlace target goal

variable
    {files : FileSystem}
    {source second target other : String}
    {node otherNode : Node}
    {place goal otherPlace otherGoal : Location}

/- A pair of paths asks for one thing. -/
theorem MoveRequest.unique
    (hRequest :
      files.MoveRequest source second target node place
        goal)
    (hOther :
      files.MoveRequest source second other otherNode
        otherPlace otherGoal) :
    other = target ∧ otherNode = node ∧
      otherPlace = place ∧ otherGoal = goal := by
  rcases FileManagement.isDestination_unique
      hRequest.destination hOther.destination with
    rfl
  have hEntry := hRequest.entry
  unfold NamesEntry at hEntry
  have hSame := hOther.entry
  unfold NamesEntry at hSame
  rw [hEntry] at hSame
  cases hSame
  rcases hRequest.goal with ⟨spot, hSpot, rfl⟩
  rcases hOther.goal with ⟨found, hFound, rfl⟩
  rw [hSpot] at hFound
  cases hFound
  exact ⟨rfl, rfl, rfl, rfl⟩

end FileSystem

end LineShell

------------------------------------------------------------
-- Moving
------------------------------------------------------------

namespace LineShell

/-
  An answer to the wish to move. The files stay as they are
  or the entry has moved. Where the ways of the paths do not
  lead over what moves or gives way, the destination names
  the entry afterwards and the source names nothing.
-/
structure Answer.IsMove
    (answer : Answer)
    (files : FileSystem)
    (source second : String) : Prop where
  failed :
    ∀ fault,
      answer.result = .error fault → answer.files = files
  succeeds_iff :
    (∃ text, answer.result = .ok text) ↔
      ∃ target node place goal,
        files.MoveRequest source second target node place
            goal ∧
          (Path.isWithin source target = true →
            target = source) ∧
          files.CanMove node place goal
  stayed :
    ∀ text target node place,
      answer.result = .ok text →
        files.MoveRequest source second target node place
            place →
          answer.files = files
  moved :
    ∀ text target node place goal,
      answer.result = .ok text →
        files.MoveRequest source second target node place
            goal →
          goal ≠ place →
            answer.files.IsMoved files node place goal
  others :
    ∀ text target node place goal,
      answer.result = .ok text →
        files.MoveRequest source second target node place
            goal →
          ∀ other there,
            files.get? other = some there →
              ¬ other.IsWithin place →
                other ≠ goal →
                  answer.files.get? other = some there
  renamed :
    ∀ text target node place goal,
      answer.result = .ok text →
        files.MoveRequest source second target node place
            goal →
          goal ≠ place →
            ((files.beside place goal).NamesPlace target
                goal →
              answer.files.linkNodeAt target = .ok node) ∧
            ((files.beside place goal).NamesPlace source
                place →
              answer.files.linkNodeAt source =
                .error (.refused .noEntry))
  not_below :
    ∀ target node place goal,
      files.MoveRequest source second target node place
          goal →
        goal ≠ place ∧ goal.IsWithin place ∨
            target ≠ source ∧
              Path.isWithin source target = true →
          ∃ fault, answer.result = .error fault

namespace FileManagement

variable
    {files : FileSystem}
    {source second target : String}
    {node : Node}
    {place goal : Location}

/-
  Paths with a way beside the move name the node where it
  has arrived, and nothing where it was.
-/
theorem named_of_isMoved
    {moved : FileSystem}
    (hMoved : moved.IsMoved files node place goal)
    (hEntry : files.NamesEntry source place node)
    (hCan : files.CanMove node place goal) :
    ((files.beside place goal).NamesPlace target goal →
        moved.linkNodeAt target = .ok node) ∧
      ((files.beside place goal).NamesPlace source place →
        moved.linkNodeAt source =
          .error (.refused .noEntry)) := by
  have hNode : files.get? place = some node :=
    FileSystem.isIn_of_locate hEntry
  have hArrived := hMoved.get?_target hNode
  have hGone : moved.get? place = none := hMoved.gone []
  constructor
  · intro hTarget
    have hFree : (files.beside place goal).get? goal = none :=
      FileSystem.get?_beside_eq_none hCan.target_below
        (Or.inr (List.suffix_refl goal))
    rw [FileSystem.linkNodeAt_of_keeps hTarget hFree
      hMoved.keeps_beside, hArrived]
  · intro hSource
    have hFree :
        (files.beside place goal).get? place = none :=
      FileSystem.get?_beside_eq_none hCan.source_below
        (Or.inl (List.suffix_refl place))
    rw [FileSystem.linkNodeAt_of_keeps hSource hFree
      hMoved.keeps_beside, hGone]

/- A move that was made, of the only entry there is. -/
theorem isMove_of_moved
    {moved : FileSystem}
    (hRequest :
      files.MoveRequest source second target node place
        goal)
    (hOutside :
      Path.isWithin source target = true → target = source)
    (hCan : files.CanMove node place goal)
    (hSame : place = goal → moved = files)
    (hMoved :
      place ≠ goal → moved.IsMoved files node place goal) :
    (Answer.plain moved none).IsMove files source
      second where
  failed := by
    intro fault hFault
    cases hFault
  succeeds_iff := by
    constructor
    · intro hSuccess
      exact ⟨target, node, place, goal, hRequest, hOutside,
        hCan⟩
    · intro hPossible
      exact ⟨none, rfl⟩
  stayed := by
    intro text other otherNode there hText hOther
    rcases hRequest.unique hOther with
      ⟨rfl, rfl, hPlace, hGoal⟩
    exact hSame (hPlace.symm.trans hGoal)
  moved := by
    intro text other otherNode there aim hText hOther hApart
    rcases hRequest.unique hOther with
      ⟨rfl, rfl, rfl, rfl⟩
    exact hMoved hApart.symm
  others := by
    intro text other otherNode there aim hText hOther
      elsewhere found hFound hOut hNot
    rcases hRequest.unique hOther with
      ⟨rfl, rfl, rfl, rfl⟩
    by_cases hApart : there = aim
    · exact (hSame hApart).symm ▸ hFound
    · exact (hMoved hApart).get?_other hFound hOut hNot
  renamed := by
    intro text other otherNode there aim hText hOther hApart
    rcases hRequest.unique hOther with
      ⟨rfl, rfl, rfl, rfl⟩
    exact named_of_isMoved (hMoved hApart.symm)
      hRequest.entry hCan
  not_below := by
    intro other otherNode there aim hOther hBelow
    rcases hRequest.unique hOther with
      ⟨rfl, rfl, rfl, rfl⟩
    rcases hBelow with
      ⟨hApart, hWithin⟩ | ⟨hApart, hWithin⟩
    · exact absurd hWithin (hMoved hApart.symm).not_into
    · exact absurd (hOutside hWithin) hApart

/- Where nothing can be moved a fault is the right answer. -/
theorem isMove_of_refused
    (hCannot :
      ∀ target node place goal,
        files.MoveRequest source second target node place
            goal →
          (Path.isWithin source target = true →
            target = source) →
            ¬ files.CanMove node place goal)
    (fault : Fault) :
    (Answer.fail files fault).IsMove files source
      second where
  failed := by
    intro other hOther
    rfl
  succeeds_iff := by
    constructor
    · rintro ⟨text, hText⟩
      cases hText
    · rintro ⟨target, node, place, goal, hRequest, hOutside,
        hCan⟩
      exact absurd hCan
        (hCannot target node place goal hRequest hOutside)
  stayed := by
    intro text target node place hText
    cases hText
  moved := by
    intro text target node place goal hText
    cases hText
  others := by
    intro text target node place goal hText
    cases hText
  renamed := by
    intro text target node place goal hText
    cases hText
  not_below := by
    intro target node place goal hRequest hBelow
    exact ⟨fault, rfl⟩

/- What can be moved to its destination is moved. -/
theorem run_mv_of_canMove
    {call : Call}
    (hRequest :
      files.MoveRequest (call.resolve (call.arg 0))
        (call.resolve (call.arg 1)) target node place goal)
    (hOutside :
      Path.isWithin (call.resolve (call.arg 0)) target =
          true →
        target = call.resolve (call.arg 0))
    (hCan : files.CanMove node place goal) :
    ∃ moved,
      mv.run call files = .plain moved none ∧
        (place = goal → moved = files) ∧
        (place ≠ goal →
          moved.IsMoved files node place goal) := by
  unfold mv
  dsimp only
  generalize call.resolve (call.arg 0) = source
    at hRequest hOutside ⊢
  have hEntry := hRequest.entry
  have hTarget :=
    destination_eq_ok_iff.2 hRequest.destination
  have hLook : files.linkNodeAt source = .ok node := by
    unfold FileSystem.NamesEntry at hEntry
    simp [FileSystem.linkNodeAt, hEntry, bind, Except.bind]
  have hInside :
      ¬ (Path.isWithin source target = true ∧
        target ≠ source) := by
    rintro ⟨hWithin, hOther⟩
    exact hOther (hOutside hWithin)
  rcases FileSystem.rename_of_canMove hEntry hRequest.goal
      hCan with
    ⟨moved, hRename, hMoved⟩
  refine ⟨moved, ?_, hMoved⟩
  simp [Answer.looking, Answer.changing, hLook, hTarget,
    hInside, hRename]

/- What cannot be moved is refused, and nothing changes. -/
theorem run_mv_of_not_canMove
    {call : Call}
    (hCannot :
      ∀ target node place goal,
        files.MoveRequest (call.resolve (call.arg 0))
            (call.resolve (call.arg 1)) target node place
            goal →
          (Path.isWithin (call.resolve (call.arg 0)) target =
              true →
            target = call.resolve (call.arg 0)) →
            ¬ files.CanMove node place goal) :
    ∃ fault, mv.run call files = .fail files fault := by
  unfold mv
  dsimp only
  generalize call.resolve (call.arg 0) = source at hCannot ⊢
  cases hLook : files.linkNodeAt source with
  | error cause => exact ⟨_, rfl⟩
  | ok node =>
      simp only [Answer.looking]
      split
      case h_1 fault hNone => exact ⟨_, rfl⟩
      case h_2 target hTarget =>
        rw [destination_eq_ok_iff] at hTarget
        split
        case isTrue => exact ⟨_, rfl⟩
        case isFalse hInside =>
          have hNoMove :
              ∀ place node goal,
                files.NamesEntry source place node →
                  files.NamesPlace target goal →
                    ¬ files.CanMove node place goal := by
            intro place node goal hEntry hGoal
            apply hCannot target node place goal
              ⟨hTarget, hEntry, hGoal⟩
            intro hWithin
            apply Classical.byContradiction
            intro hOther
            exact hInside ⟨hWithin, hOther⟩
          rcases FileSystem.rename_of_not_canMove hNoMove with
            ⟨cause, hError⟩
          rw [hError]
          exact ⟨_, rfl⟩

/-
  A move succeeds or leaves everything as it is. The entry
  arrives with all that is below it, at a place that was free
  or gave way, and never below itself.
-/
theorem mv_moves_or_keeps
    (call : Call)
    (files : FileSystem) :
    (mv.run call files).IsMove files
      (call.resolve (call.arg 0))
      (call.resolve (call.arg 1)) := by
  by_cases hPossible :
    ∃ target node place goal,
      files.MoveRequest (call.resolve (call.arg 0))
          (call.resolve (call.arg 1)) target node place
          goal ∧
        (Path.isWithin (call.resolve (call.arg 0)) target =
            true →
          target = call.resolve (call.arg 0)) ∧
        files.CanMove node place goal
  case pos =>
    rcases hPossible with
      ⟨target, node, place, goal, hRequest, hOutside, hCan⟩
    rcases run_mv_of_canMove hRequest hOutside hCan with
      ⟨moved, hRun, hSame, hMoved⟩
    rw [hRun]
    exact isMove_of_moved hRequest hOutside hCan hSame hMoved
  case neg =>
    have hCannot :
        ∀ target node place goal,
          files.MoveRequest (call.resolve (call.arg 0))
              (call.resolve (call.arg 1)) target node place
              goal →
            (Path.isWithin (call.resolve (call.arg 0))
                target = true →
              target = call.resolve (call.arg 0)) →
              ¬ files.CanMove node place goal := by
      intro target node place goal hRequest hOutside hCan
      exact hPossible
        ⟨target, node, place, goal, hRequest, hOutside, hCan⟩
    rcases run_mv_of_not_canMove hCannot with
      ⟨fault, hRun⟩
    rw [hRun]
    exact isMove_of_refused hCannot fault

end FileManagement

end LineShell

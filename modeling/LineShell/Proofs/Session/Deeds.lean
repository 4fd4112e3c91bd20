import LineShell.Proofs.Session.CurrentDirectory

/-
  What is done while a line is evaluated, apart from what is
  recorded of it: texts are read, commands are entered, and
  the target of a redirect is written. The deeds of a line
  stand in the order in which they are done, each one in the
  world that the ones before it left, and what the reading
  of a text leads to stands right behind it.

  Key definitions include:
    * `Deed`
    * `Deed.IsDoneIn`
    * `Deed.leave`
    * `Deed.events`
    * `Shell.Leads`
    * `Shell.deeds`
    * `Run.IsLeftBy`
    * `Shell.EvaluatesReadings`

  Correctness is proven by:
    * `Shell.isLeftBy_deeds`
    * `Shell.evaluatesReadings_deeds`
-/

------------------------------------------------------------
-- Deeds
------------------------------------------------------------

namespace LineShell

/-
  The directory to which an answer sends the session: the
  last one that a command asked for, if it succeeded and its
  signature lets it go anywhere.
-/
def Answer.destination?
    (answer : Answer)
    (signature : Signature) : Option String :=
  if answer.result.isOk && signature.changesDirectory then
    answer.requested.getLast?
  else
    none

/-
  A text is read as a directive or refused; a command that
  finds these directories is entered and answers; what there
  is of a text is written to a path, or it cannot be.
-/
inductive Deed where
  | read
      (text : String)
      (result : Except UnclosedQuote Directive)
  | enter
      (name : String)
      (args : List String)
      (command : Command)
      (found : Directories)
      (answer : Answer)
  | write
      (mode : WriteMode)
      (path : String)
      (text : Option String)
      (result : Except FileError FileSystem)

namespace Deed

/-
  A shell does a deed in a world: the directive is that of
  the text, the command is the one of that name, takes so
  many arguments and answers so, and the files are those
  that the text leaves at the path.
-/
def IsDoneIn
    (shell : Shell)
    (world : World) :
    Deed → Prop
  | read text result =>
    Directive.ofLine shell.registry.contains text = result
  | enter name args command found answer =>
    shell.registry.find? name = some command ∧
      ¬ command.signature.IsOutOfBounds args.length ∧
        found = world.directories ∧
          ∃ input toUser,
            shell.answer command args input toUser world =
              answer
  | write mode path text result =>
    world.files.writeFile mode path
        (text.getD "").toByteArray =
      result

/- The world that a deed leaves behind. -/
def leave
    (world : World) :
    Deed → World
  | read _ _ => world
  | enter _ _ command found answer =>
    ⟨answer.files,
      { found with
        current :=
          (answer.destination? command.signature).getD
            found.current }⟩
  | write _ _ _ (.ok files) => { world with files := files }
  | write _ _ _ (.error _) => world

end Deed

namespace Shell

/-
  Deeds lead from a world to another one if each is done in
  the world that the ones before it leave.
-/
inductive Leads
    (shell : Shell) :
    World → List Deed → World → Prop where
  | nil
      (world : World) :
      Leads shell world [] world
  | cons
      {start finish : World}
      {deed : Deed}
      {rest : List Deed}
      (hDone : deed.IsDoneIn shell start)
      (hRest :
        Leads shell (deed.leave start) rest finish) :
      Leads shell start (deed :: rest) finish

/-
  A name with arguments leads to a command being entered if
  one of that name takes so many of them, and to nothing
  else.
-/
def deedsOfCall
    (shell : Shell)
    (name : String)
    (args : List String)
    (input : Option String)
    (toUser : Bool)
    (world : World) : List Deed :=
  match shell.registry.find? name with
  | none => []
  | some command =>
    if command.signature.accepts args.length then
      [.enter name args command world.directories
        (shell.answer command args input toUser world)]
    else
      []

/-
  A redirect writes to the path that its target means in the
  world that its left side has left.
-/
def deedOfTarget
    (mode : WriteMode)
    (target : String)
    (text : Option String)
    (world : World) : Deed :=
  let path := world.directories.resolve target
  .write mode path text
    (world.files.writeFile mode path
      (text.getD "").toByteArray)

/-
  The deeds of a line, in order. The right side of an
  operator has its turn only if the left one succeeded.
-/
def deeds
    (shell : Shell)
    (line : String)
    (input : Option String)
    (toUser : Bool)
    (world : World) : List Deed :=
  .read line
      (Directive.ofLine shell.registry.contains line) ::
    match hLine :
        Directive.ofLine shell.registry.contains line with
    | .ok (.simple name args) =>
      shell.deedsOfCall name args input toUser world
    | .ok (.pipeline left right) =>
      have := Directive.length_pipeline_lt hLine
      let first := shell.evaluateFor left input false world
      shell.deeds left input false world ++
        if first.outcome.isSuccess then
          shell.deeds right first.outcome.output toUser
            first.world
        else
          []
    | .ok (.redirect mode left target) =>
      have := Directive.length_redirect_lt hLine
      let first := shell.evaluateFor left input false world
      shell.deeds left input false world ++
        if first.outcome.isSuccess then
          [deedOfTarget mode target first.outcome.output
            first.world]
        else
          []
    | _ => []
termination_by line.length
decreasing_by all_goals omega

end Shell

end LineShell

------------------------------------------------------------
-- One step of the deeds
------------------------------------------------------------

namespace LineShell

namespace Shell

variable
    {shell : Shell}
    {line : String}
    (input : Option String)
    (toUser : Bool)
    (world : World)

theorem deeds_of_error
    {fault : UnclosedQuote}
    (hLine :
      Directive.ofLine shell.registry.contains line =
        .error fault) :
    shell.deeds line input toUser world =
      [.read line (.error fault)] := by
  rw [deeds]
  split <;> simp_all

theorem deeds_of_empty
    (hLine :
      Directive.ofLine shell.registry.contains line =
        .ok .empty) :
    shell.deeds line input toUser world =
      [.read line (.ok .empty)] := by
  rw [deeds]
  split <;> simp_all

theorem deeds_of_unregistered
    {name : String}
    {args : List String}
    (hLine :
      Directive.ofLine shell.registry.contains line =
        .ok (.unregistered name args)) :
    shell.deeds line input toUser world =
      [.read line (.ok (.unregistered name args))] := by
  rw [deeds]
  split <;> simp_all

theorem deeds_of_simple
    {name : String}
    {args : List String}
    (hLine :
      Directive.ofLine shell.registry.contains line =
        .ok (.simple name args)) :
    shell.deeds line input toUser world =
      .read line (.ok (.simple name args)) ::
        shell.deedsOfCall name args input toUser world := by
  rw [deeds]
  split <;> simp_all

theorem deeds_of_pipeline
    {left right : String}
    (hLine :
      Directive.ofLine shell.registry.contains line =
        .ok (.pipeline left right)) :
    shell.deeds line input toUser world =
      .read line (.ok (.pipeline left right)) ::
        (shell.deeds left input false world ++
          if (shell.evaluateFor left input false
              world).outcome.isSuccess then
            shell.deeds right
              (shell.evaluateFor left input false
                world).outcome.output
              toUser
              (shell.evaluateFor left input false
                world).world
          else
            []) := by
  rw [deeds]
  split <;> simp_all

theorem deeds_of_redirect
    {mode : WriteMode}
    {left target : String}
    (hLine :
      Directive.ofLine shell.registry.contains line =
        .ok (.redirect mode left target)) :
    shell.deeds line input toUser world =
      .read line (.ok (.redirect mode left target)) ::
        (shell.deeds left input false world ++
          if (shell.evaluateFor left input false
              world).outcome.isSuccess then
            [deedOfTarget mode target
              (shell.evaluateFor left input false
                world).outcome.output
              (shell.evaluateFor left input false
                world).world]
          else
            []) := by
  rw [deeds]
  split <;> simp_all

end Shell

end LineShell

------------------------------------------------------------
-- What is recorded of a deed
------------------------------------------------------------

namespace LineShell

/- The record of a text once it has been read. -/
def Event.ofReading
    (text : String) :
    Except UnclosedQuote Directive → Event
  | .ok directive => .recognized text directive.kind
  | .error fault => .unrecognized text fault

/-
  The records of what a command answered: its fault, or the
  directory that it asked for last.
-/
def Answer.remarks
    (answer : Answer)
    (command : Command)
    (found : Directories) : List Event :=
  match answer.result, answer.requested.getLast? with
  | .error fault, _ => [.commandFailed command.name fault]
  | .ok _, none => []
  | .ok _, some directory =>
    if command.signature.changesDirectory then
      [.moved found.current directory]
    else
      [.moveIgnored command.name directory]

/- The records of a deed. -/
def Deed.events :
    Deed → List Event
  | read text result => [.ofReading text result]
  | enter name args command found answer =>
    .entered name args :: answer.remarks command found
  | write mode path text (.ok _) =>
    [.wrote (text.getD "").utf8ByteSize path mode]
  | write _ path _ (.error cause) =>
    [.writeFailed path cause]

namespace Shell.Leads

variable
    {shell : Shell}
    {start middle finish : World}
    {front rest : List Deed}

theorem append
    (hFront : shell.Leads start front middle)
    (hRest : shell.Leads middle rest finish) :
    shell.Leads start (front ++ rest) finish := by
  induction hFront with
  | nil world => exact hRest
  | cons hDone _ ih => exact .cons hDone (ih hRest)

theorem singleton
    {world : World}
    {deed : Deed}
    (hDone : deed.IsDoneIn shell world) :
    shell.Leads world [deed] (deed.leave world) :=
  .cons hDone (.nil _)

end Shell.Leads

/-
  A run is left by deeds: they lead to its world, and its
  events are the records of the deeds, in order.
-/
structure Run.IsLeftBy
    (shell : Shell)
    (start : World)
    (deeds : List Deed)
    (run : Run) : Prop where
  leads : shell.Leads start deeds run.world
  events_eq : run.events = deeds.flatMap Deed.events

namespace Run.IsLeftBy

variable
    {shell : Shell}
    {start : World}
    {deeds : List Deed}
    {run : Run}

/- Without a deed nothing is recorded. -/
theorem of_no_deed
    (outcome : Outcome)
    (world : World) :
    Run.IsLeftBy shell world [] ⟨outcome, world, []⟩ :=
  ⟨.nil world, rfl⟩

/- A text that is read is recorded before what follows. -/
theorem after_reading
    {text : String}
    {result : Except UnclosedQuote Directive}
    (hText :
      Directive.ofLine shell.registry.contains text = result)
    (hRun : run.IsLeftBy shell start deeds) :
    (run.after [.ofReading text result]).IsLeftBy shell
      start (.read text result :: deeds) := by
  constructor
  · exact .cons hText hRun.leads
  · rw [events_after, hRun.events_eq, List.flatMap_cons]
    rfl

/- What follows on a success follows on its deeds. -/
theorem andThen
    {next : Option String → World → Run}
    {more : List Deed}
    (hRun : run.IsLeftBy shell start deeds)
    (hNext :
      (next run.outcome.output run.world).IsLeftBy shell
        run.world more) :
    (run.andThen next).IsLeftBy shell start
      (deeds ++
        if run.outcome.isSuccess then more else []) := by
  cases hSuccess : run.outcome.isSuccess with
  | false =>
      rw [andThen_of_not_isSuccess hSuccess,
        if_neg Bool.false_ne_true, List.append_nil]
      exact hRun
  | true =>
      rw [andThen_of_isSuccess hSuccess, if_pos rfl]
      constructor
      · exact hRun.leads.append hNext.leads
      · rw [events_after, hRun.events_eq, hNext.events_eq,
          List.flatMap_append]

end Run.IsLeftBy

end LineShell

------------------------------------------------------------
-- Runs are left by their deeds
------------------------------------------------------------

namespace LineShell

namespace Shell

/-
  A shell records what there is to remark on the answer of a
  command, and leaves the world to which the answer leads.
-/
theorem enter_eq_leave
    (shell : Shell)
    (command : Command)
    (name : String)
    (args : List String)
    (input : Option String)
    (toUser : Bool)
    (world : World) :
    (shell.enter command args input toUser world).world =
        (Deed.enter name args command world.directories
          (shell.answer command args input toUser
            world)).leave world ∧
      (shell.enter command args input toUser world).events =
        (shell.answer command args input toUser
          world).remarks command world.directories := by
  cases hAnswer :
      shell.answer command args input toUser world with
  | mk files requested result =>
      cases result with
      | error fault =>
          rw [enter_of_error hAnswer]
          exact ⟨rfl, rfl⟩
      | ok output =>
          rw [enter_of_ok hAnswer]
          unfold applyMove
          cases hLast : requested.getLast? with
          | none =>
              simp [Deed.leave, Answer.destination?,
                Answer.remarks, hLast]
          | some directory =>
              cases hChanges :
                  command.signature.changesDirectory <;>
                simp [Deed.leave, Answer.destination?,
                  Answer.remarks, Command.name, hLast,
                  hChanges, Except.isOk, Except.toBool]

theorem isLeftBy_enter
    {shell : Shell}
    {name : String}
    {args : List String}
    {command : Command}
    (hFind : shell.registry.find? name = some command)
    (hAccepts :
      command.signature.accepts args.length = true)
    (input : Option String)
    (toUser : Bool)
    (world : World) :
    ((shell.enter command args input toUser world).after
        [.entered name args]).IsLeftBy shell world
      [.enter name args command world.directories
        (shell.answer command args input toUser world)] := by
  rcases shell.enter_eq_leave command name args input toUser
      world with
    ⟨hWorld, hEvents⟩
  constructor
  · rw [Run.world_after, hWorld]
    exact .singleton
      ⟨hFind, Signature.accepts_iff.1 hAccepts, rfl, input,
        toUser, rfl⟩
  · rw [Run.events_after, hEvents, List.flatMap_singleton]
    rfl

theorem isLeftBy_dispatch
    (shell : Shell)
    (name : String)
    (args : List String)
    (input : Option String)
    (toUser : Bool)
    (world : World) :
    (shell.dispatch name args input toUser world).IsLeftBy
      shell world
      (shell.deedsOfCall name args input toUser world) := by
  unfold dispatch deedsOfCall
  cases hFind : shell.registry.find? name with
  | none => exact .of_no_deed _ world
  | some command =>
      dsimp only
      split
      case isTrue hAccepts =>
        exact isLeftBy_enter hFind hAccepts input toUser world
      case isFalse =>
        exact .of_no_deed _ world

theorem isLeftBy_write
    (shell : Shell)
    (mode : WriteMode)
    (target : String)
    (text : Option String)
    (world : World) :
    (write mode target text world).IsLeftBy shell world
      [deedOfTarget mode target text world] := by
  cases hFile :
      world.files.writeFile mode
        (world.directories.resolve target)
        (text.getD "").toByteArray with
  | ok files =>
      rw [write_of_ok hFile, deedOfTarget, hFile]
      exact ⟨.singleton hFile, rfl⟩
  | error cause =>
      rw [write_of_error hFile, deedOfTarget, hFile]
      exact ⟨.singleton hFile, rfl⟩

/- The evaluation of a line is left by the deeds of it. -/
theorem isLeftBy_deeds
    (shell : Shell)
    (line : String)
    (input : Option String)
    (toUser : Bool)
    (world : World) :
    (shell.evaluateFor line input toUser world).IsLeftBy
      shell world (shell.deeds line input toUser world) := by
  -- The induction is on the evaluation: an open quote, a
  -- blank line, an unknown name, a command, a pipe and a
  -- redirect. The right side of an operator goes on where
  -- the deeds of the left one led.
  induction line, input, toUser, world using
      evaluateFor.induct shell with
  | case1 line input toUser world fault hLine =>
      rw [evaluateFor_of_error input toUser world hLine,
        deeds_of_error input toUser world hLine]
      exact (Run.IsLeftBy.of_no_deed _ world).after_reading
        hLine
  | case2 line input toUser world hLine =>
      rw [evaluateFor_of_empty input toUser world hLine,
        deeds_of_empty input toUser world hLine]
      exact (Run.IsLeftBy.of_no_deed _ world).after_reading
        hLine
  | case3 line input toUser world name args hLine =>
      rw [evaluateFor_of_unregistered input toUser world
          hLine,
        deeds_of_unregistered input toUser world hLine]
      exact (Run.IsLeftBy.of_no_deed _ world).after_reading
        hLine
  | case4 line input toUser world name args hLine =>
      rw [evaluateFor_of_simple input toUser world hLine,
        deeds_of_simple input toUser world hLine]
      exact (isLeftBy_dispatch shell name args input toUser
        world).after_reading hLine
  | case5 line input toUser world left right hLine _
      ihLeft ihRight =>
      rw [evaluateFor_of_pipeline input toUser world hLine,
        deeds_of_pipeline input toUser world hLine]
      exact (ihLeft.andThen (ihRight _ _)).after_reading
        hLine
  | case6 line input toUser world mode left target hLine _
      ihLeft =>
      rw [evaluateFor_of_redirect input toUser world hLine,
        deeds_of_redirect input toUser world hLine]
      exact (ihLeft.andThen
        (isLeftBy_write shell mode target _ _)).after_reading
        hLine

end Shell

end LineShell

------------------------------------------------------------
-- What a text causes
------------------------------------------------------------

namespace LineShell

/-
  A deed amid others that are two rows in turn is amid those
  of the first row or amid those of the second.
-/
theorem Deed.amid_append
    {front back first second : List Deed}
    {deed : Deed}
    (hEq : first ++ second = front ++ deed :: back) :
    (∃ rest,
        first = front ++ deed :: rest ∧
          back = rest ++ second) ∨
      ∃ rest,
        front = first ++ rest ∧
          second = rest ++ deed :: back := by
  rcases List.append_eq_append_iff.1 hEq with
    ⟨rest, hFront, hSecond⟩ | ⟨rest, hFirst, hBack⟩
  · exact Or.inr ⟨rest, hFront, hSecond⟩
  · cases rest with
    | nil =>
        refine Or.inr ⟨[], ?_, hBack.symm⟩
        simpa using hFirst.symm
    | cons other rest =>
        rcases List.cons.inj hBack with ⟨rfl, hRest⟩
        exact Or.inl ⟨rest, hFirst, hRest⟩

namespace Shell

/-
  Deeds lead to a world in which a text is evaluated: it is
  read there, and the deeds behind are those that it causes
  and those that come later.
-/
def EvaluatesNext
    (shell : Shell)
    (start : World)
    (front : List Deed)
    (text : String)
    (result : Except UnclosedQuote Directive)
    (back : List Deed) : Prop :=
  ∃ given shown found caused later,
    shell.Leads start front found ∧
      shell.deeds text given shown found =
          .read text result :: caused ∧
        back = caused ++ later

/- Every text that is read is evaluated then and there. -/
def EvaluatesReadings
    (shell : Shell)
    (start : World)
    (deeds : List Deed) : Prop :=
  ∀ front text result back,
    deeds = front ++ .read text result :: back →
      shell.EvaluatesNext start front text result back

namespace EvaluatesReadings

variable
    {shell : Shell}
    {start middle : World}
    {first second : List Deed}

theorem of_no_reading
    (hNone : ∀ text result, .read text result ∉ first) :
    shell.EvaluatesReadings start first := by
  rintro front text result back rfl
  exact absurd (by simp) (hNone text result)

theorem append
    (hLeads : shell.Leads start first middle)
    (hFirst : shell.EvaluatesReadings start first)
    (hSecond : shell.EvaluatesReadings middle second) :
    shell.EvaluatesReadings start (first ++ second) := by
  intro front text result back hEq
  rcases Deed.amid_append hEq with
    ⟨rest, hAmid, rfl⟩ | ⟨rest, rfl, hAmid⟩
  · rcases hFirst front text result rest hAmid with
      ⟨given, shown, found, caused, later, hFront, hText,
        rfl⟩
    exact ⟨given, shown, found, caused, later ++ second,
      hFront, hText, List.append_assoc ..⟩
  · rcases hSecond rest text result back hAmid with
      ⟨given, shown, found, caused, later, hFront, hRest⟩
    exact ⟨given, shown, found, caused, later,
      hLeads.append hFront, hRest⟩

/- A line is evaluated if its own reading comes first. -/
theorem of_line
    {line : String}
    {input : Option String}
    {toUser : Bool}
    {own : Except UnclosedQuote Directive}
    {caused : List Deed}
    (hLine :
      shell.deeds line input toUser start =
        .read line own :: caused)
    (hCaused : shell.EvaluatesReadings start caused) :
    shell.EvaluatesReadings start
      (shell.deeds line input toUser start) := by
  have hLeads :=
    (shell.isLeftBy_deeds line input toUser start).leads
  rw [hLine] at hLeads ⊢
  intro front text result back hEq
  cases front with
  | nil =>
      rw [List.nil_append, List.cons.injEq,
        Deed.read.injEq] at hEq
      rcases hEq with ⟨⟨rfl, rfl⟩, rfl⟩
      exact ⟨input, toUser, start, caused, [], .nil start,
        hLine, (List.append_nil caused).symm⟩
  | cons other rest =>
      rcases List.cons.inj hEq with ⟨rfl, hRest⟩
      rcases hCaused rest text result back hRest with
        ⟨given, shown, found, after, later, hFront, hText⟩
      cases hLeads with
      | cons hDone _ =>
          exact ⟨given, shown, found, after, later,
            .cons hDone hFront, hText⟩

end EvaluatesReadings

variable
    {shell : Shell}
    {input : Option String}
    {toUser : Bool}
    {world : World}

theorem read_not_mem_deedsOfCall
    {name : String}
    {args : List String}
    (text : String)
    (result : Except UnclosedQuote Directive) :
    .read text result ∉
      shell.deedsOfCall name args input toUser world := by
  unfold deedsOfCall
  split
  · simp
  · split <;> simp

/- The texts that are read on the way are evaluated. -/
theorem evaluatesReadings_deeds
    (shell : Shell)
    (line : String)
    (input : Option String)
    (toUser : Bool)
    (world : World) :
    shell.EvaluatesReadings world
      (shell.deeds line input toUser world) := by
  -- Behind the line itself, a text is read for the left side
  -- of an operator or for the right side of a pipe.
  induction line, input, toUser, world using
      evaluateFor.induct shell with
  | case1 line input toUser world fault hLine =>
      exact .of_line
        (deeds_of_error input toUser world hLine)
        (.of_no_reading (by simp))
  | case2 line input toUser world hLine =>
      exact .of_line
        (deeds_of_empty input toUser world hLine)
        (.of_no_reading (by simp))
  | case3 line input toUser world name args hLine =>
      exact .of_line
        (deeds_of_unregistered input toUser world hLine)
        (.of_no_reading (by simp))
  | case4 line input toUser world name args hLine =>
      exact .of_line
        (deeds_of_simple input toUser world hLine)
        (.of_no_reading read_not_mem_deedsOfCall)
  | case5 line input toUser world left right hLine _
      ihLeft ihRight =>
      refine .of_line
        (deeds_of_pipeline input toUser world hLine)
        (.append
          (shell.isLeftBy_deeds left input false world).leads
          ihLeft ?_)
      split
      · exact ihRight _ _
      · exact .of_no_reading (by simp)
  | case6 line input toUser world mode left target hLine _
      ihLeft =>
      refine .of_line
        (deeds_of_redirect input toUser world hLine)
        (.append
          (shell.isLeftBy_deeds left input false world).leads
          ihLeft ?_)
      split
      · exact .of_no_reading (by simp [deedOfTarget])
      · exact .of_no_reading (by simp)

end Shell

end LineShell

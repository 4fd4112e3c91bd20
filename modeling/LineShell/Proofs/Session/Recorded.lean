import LineShell.Proofs.Session.Deeds
import LineShell.Proofs.Session.Pipeline
import Mathlib.Data.List.Basic

/-
  The log of an evaluation as a trace of it. From its
  records one can tell, in order, which texts were read,
  which commands were entered, where the session went, what
  redirects wrote, and what is worth a warning.

  Key definitions include:
    * `Change`
    * `Change.Chain`
    * `Deed.change?`
    * `Deed.warning?`
    * `Shell.RecordsDeeds`

  Correctness is proven by:
    * `Run.IsLeftBy.filterMap_eq`
    * `Shell.Leads.chain`
    * `Shell.log_traces_deeds`
-/

------------------------------------------------------------
-- Changes of the directory
------------------------------------------------------------

namespace LineShell

/- The current directory before a change and after it. -/
structure Change where
  before : String
  after : String
deriving DecidableEq, Repr

namespace Change

/- The record of a change. -/
def event
    (change : Change) : Event :=
  .moved change.before change.after

/-
  Changes are a chain from a directory to another one if
  each of them begins where the one before it ends.
-/
inductive Chain :
    String → List Change → String → Prop where
  | nil
      (directory : String) :
      Chain directory [] directory
  | cons
      (change : Change)
      {rest : List Change}
      {finish : String}
      (hRest : Chain change.after rest finish) :
      Chain change.before (change :: rest) finish

theorem Chain.append
    {start middle finish : String}
    {front rest : List Change}
    (hFront : Chain start front middle)
    (hRest : Chain middle rest finish) :
    Chain start (front ++ rest) finish := by
  induction hFront with
  | nil directory => exact hRest
  | cons change _ ih => exact .cons change (ih hRest)

end Change

------------------------------------------------------------
-- What there is to tell of a deed
------------------------------------------------------------

/-
  The directory that a command asked for in vain: it
  succeeded, but its signature lets it go nowhere.
-/
def Answer.ignored?
    (answer : Answer)
    (signature : Signature) : Option String :=
  if answer.result.isOk && !signature.changesDirectory then
    answer.requested.getLast?
  else
    none

namespace Deed

/- The text that was read, and the sort of what it is. -/
def reading? :
    Deed →
      Option
        (String × Except UnclosedQuote Directive.Kind)
  | read text result =>
    some (text, result.map Directive.kind)
  | _ => none

/- The command that was entered, with its arguments. -/
def entry? :
    Deed → Option (String × List String)
  | enter name args _ _ _ => some (name, args)
  | _ => none

/- The change of the directory that was made. -/
def change? :
    Deed → Option Change
  | enter _ _ command found answer =>
    (answer.destination? command.signature).map
      (Change.mk found.current)
  | _ => none

/- How many bytes were written, and where. -/
def written? :
    Deed → Option (Nat × String × WriteMode)
  | write mode path text (.ok _) =>
    some ((text.getD "").utf8ByteSize, path, mode)
  | _ => none

/-
  What is worth a warning: a redirect that failed to write,
  or a request that was ignored.
-/
def warning? :
    Deed → Option Event
  | write _ path _ (.error cause) =>
    some (.writeFailed path cause)
  | enter _ _ command _ answer =>
    (answer.ignored? command.signature).map
      (.moveIgnored command.name)
  | _ => none

end Deed

namespace Event

/- The text that an event says was read, and as what. -/
def reading? :
    Event →
      Option
        (String × Except UnclosedQuote Directive.Kind)
  | recognized text kind => some (text, .ok kind)
  | unrecognized text fault => some (text, .error fault)
  | _ => none

/- What an event says was written. -/
def written? :
    Event → Option (Nat × String × WriteMode)
  | wrote bytes path mode => some (bytes, path, mode)
  | _ => none

end Event

/-
  The records of an evaluation tell of its deeds.
    * The deeds lead to the world that the evaluation
      leaves.
    * For each text that was read there is one record, and
      for each command that was entered, in order.
    * A text that was read is recorded before all that it
      causes, which is recorded before all that comes later.
    * The records at level INFO are the changes of the
      directory. They are a chain from the directory before
      the line to the one after it, and there are none if
      and only if no change was made.
    * For each redirect that succeeded there is one record
      of how many bytes it wrote.
    * The records at level WARN are those of the redirects
      that failed to write and of the requests that were
      ignored.
-/
structure Shell.RecordsDeeds
    (shell : Shell)
    (world : World)
    (deeds : List Deed)
    (run : Run) : Prop where
  leads : shell.Leads world deeds run.world
  readings_eq :
    run.events.filterMap Event.reading? =
      deeds.filterMap Deed.reading?
  entered_eq :
    run.entered = deeds.filterMap Deed.entry?
  caused :
    ∀ front text result back,
      deeds = front ++ .read text result :: back →
        ∃ input toUser found caused later,
          shell.Leads world front found ∧
            back = caused ++ later ∧
              (shell.evaluateFor text input toUser
                  found).events =
                  .ofReading text result ::
                    caused.flatMap Deed.events ∧
                run.events =
                  front.flatMap Deed.events ++
                    (shell.evaluateFor text input toUser
                      found).events ++
                    later.flatMap Deed.events
  moved_eq :
    run.events.filter (fun event => event.level = .info) =
      (deeds.filterMap Deed.change?).map Change.event
  chain :
    Change.Chain world.directories.current
      (deeds.filterMap Deed.change?)
      run.world.directories.current
  unmoved_iff :
    (∀ event ∈ run.events, event.level ≠ .info) ↔
      ∀ deed ∈ deeds, deed.change? = none
  written_eq :
    run.events.filterMap Event.written? =
      deeds.filterMap Deed.written?
  warned_eq :
    run.events.filter (fun event => event.level = .warn) =
      deeds.filterMap Deed.warning?

end LineShell

------------------------------------------------------------
-- What the records of a deed tell
------------------------------------------------------------

namespace LineShell

/-
  An answer is remarked upon in one of four ways: it is a
  fault, it asks for no directory, it goes to one, or it
  asked for one in vain.
-/
theorem Answer.remarks_cases
    (answer : Answer)
    (command : Command)
    (found : Directories) :
    (answer.destination? command.signature = none ∧
        answer.ignored? command.signature = none ∧
          (answer.remarks command found = [] ∨
            ∃ fault,
              answer.remarks command found =
                [.commandFailed command.name fault])) ∨
      (∃ directory,
        answer.destination? command.signature =
            some directory ∧
          answer.ignored? command.signature = none ∧
            answer.remarks command found =
              [.moved found.current directory]) ∨
      ∃ directory,
        answer.destination? command.signature = none ∧
          answer.ignored? command.signature =
              some directory ∧
            answer.remarks command found =
              [.moveIgnored command.name directory] := by
  unfold destination? ignored? remarks
  cases answer.result with
  | error fault => simp [Except.isOk, Except.toBool]
  | ok output =>
      cases answer.requested.getLast? with
      | none => simp
      | some directory =>
          cases command.signature.changesDirectory <;>
            simp [Except.isOk, Except.toBool]

/-
  The records of a deed tell what was read, entered and
  written, whether the directory changed, and what is worth
  a warning. They tell nothing else of these kinds.
-/
structure Deed.IsTold
    (deed : Deed) : Prop where
  reading_eq :
    deed.events.filterMap Event.reading? =
      deed.reading?.toList
  entry_eq :
    deed.events.filterMap Event.entry? =
      deed.entry?.toList
  change_eq :
    deed.events.filter (fun event => event.level = .info) =
      (deed.change?.map Change.event).toList
  written_eq :
    deed.events.filterMap Event.written? =
      deed.written?.toList
  warning_eq :
    deed.events.filter (fun event => event.level = .warn) =
      deed.warning?.toList

theorem Deed.isTold
    (deed : Deed) :
    deed.IsTold := by
  cases deed with
  | read text result =>
      cases result <;> exact ⟨rfl, rfl, rfl, rfl, rfl⟩
  | write mode path text result =>
      cases result <;> exact ⟨rfl, rfl, rfl, rfl, rfl⟩
  | enter name args command found answer =>
      rcases answer.remarks_cases command found with
        ⟨hGoes, hVain, hRemarks | ⟨fault, hRemarks⟩⟩ |
          ⟨directory, hGoes, hVain, hRemarks⟩ |
            ⟨directory, hGoes, hVain, hRemarks⟩ <;>
        constructor <;>
        simp [events, reading?, entry?, change?, written?,
          warning?, hGoes, hVain, hRemarks, Event.reading?,
          Event.entry?, Event.written?, Event.level,
          Change.event]

end LineShell

------------------------------------------------------------
-- From deeds to runs
------------------------------------------------------------

namespace LineShell

variable
    {shell : Shell}
    {start finish : World}
    {deeds : List Deed}
    {run : Run}

namespace Run.IsLeftBy

/-
  What can be told of each deed from its own records can be
  told of the deeds, in order, from those of the run.
-/
theorem filterMap_eq
    {α : Type}
    {told : Event → Option α}
    {happened : Deed → Option α}
    (hRun : run.IsLeftBy shell start deeds)
    (hTold :
      ∀ deed : Deed,
        deed.events.filterMap told =
          (happened deed).toList) :
    run.events.filterMap told =
      deeds.filterMap happened := by
  rw [hRun.events_eq, List.filterMap_flatMap,
    List.filterMap_eq_flatMap_toList]
  exact List.flatMap_congr fun deed _ => hTold deed

theorem filter_eq
    {keep : Event → Bool}
    {happened : Deed → Option Event}
    (hRun : run.IsLeftBy shell start deeds)
    (hTold :
      ∀ deed : Deed,
        deed.events.filter keep =
          (happened deed).toList) :
    run.events.filter keep = deeds.filterMap happened := by
  rw [← List.filterMap_eq_filter]
  apply hRun.filterMap_eq
  intro deed
  rw [List.filterMap_eq_filter, hTold]

end Run.IsLeftBy

/- A deed changes the directory as it is said to. -/
theorem Deed.chain
    {deed : Deed}
    {world : World}
    (hDone : deed.IsDoneIn shell world) :
    Change.Chain world.directories.current
      deed.change?.toList
      (deed.leave world).directories.current := by
  cases deed with
  | read text result => exact .nil _
  | write mode path text result =>
      cases result <;> exact .nil _
  | enter name args command found answer =>
      rcases hDone with ⟨-, -, rfl, -⟩
      simp only [change?, leave]
      cases answer.destination? command.signature with
      | none => exact .nil _
      | some directory =>
          exact .cons ⟨world.directories.current, directory⟩
            (.nil directory)

/- Each change begins where the ones before it have led. -/
theorem Shell.Leads.chain
    (hLeads : shell.Leads start deeds finish) :
    Change.Chain start.directories.current
      (deeds.filterMap Deed.change?)
      finish.directories.current := by
  induction hLeads with
  | nil world => exact .nil _
  | cons hDone _ ih =>
      rw [List.filterMap_eq_flatMap_toList, List.flatMap_cons,
        ← List.filterMap_eq_flatMap_toList]
      exact (Deed.chain hDone).append ih

end LineShell

------------------------------------------------------------
-- The log as a trace
------------------------------------------------------------

namespace LineShell

namespace Shell

variable
    {shell : Shell}
    {line : String}
    {input : Option String}
    {toUser : Bool}
    {world : World}

/-
  What a text causes is recorded right behind the text
  itself, and is all that its evaluation records.
-/
theorem caused_of_deeds_eq
    {front back : List Deed}
    {text : String}
    {result : Except UnclosedQuote Directive}
    (hText :
      shell.deeds line input toUser world =
        front ++ .read text result :: back) :
    ∃ given shown found caused later,
      shell.Leads world front found ∧
        back = caused ++ later ∧
          (shell.evaluateFor text given shown found).events =
              .ofReading text result ::
                caused.flatMap Deed.events ∧
            (shell.evaluateFor line input toUser
                world).events =
              front.flatMap Deed.events ++
                (shell.evaluateFor text given shown
                  found).events ++
                later.flatMap Deed.events := by
  rcases shell.evaluatesReadings_deeds line input toUser world
      front text result back hText with
    ⟨given, shown, found, caused, later, hFront, hCaused,
      rfl⟩
  have hOwn :
      (shell.evaluateFor text given shown found).events =
        .ofReading text result ::
          caused.flatMap Deed.events := by
    rw [(shell.isLeftBy_deeds text given shown
      found).events_eq, hCaused]
    rfl
  refine ⟨given, shown, found, caused, later, hFront, rfl,
    hOwn, ?_⟩
  rw [(shell.isLeftBy_deeds line input toUser
    world).events_eq, hText, hOwn]
  simp [Deed.events]

/-
  The log of every line is a faithful trace of what is done
  while the line is evaluated.
-/
theorem log_traces_deeds
    (shell : Shell)
    (line : String)
    (input : Option String)
    (world : World) :
    shell.RecordsDeeds world
      (shell.deeds line input shell.interactive world)
      (shell.evaluate line input world) := by
  have hRun :=
    shell.isLeftBy_deeds line input shell.interactive world
  have hMoved :
      (shell.evaluate line input world).events.filter
          (fun event => event.level = .info) =
        ((shell.deeds line input shell.interactive
          world).filterMap Deed.change?).map Change.event := by
    rw [List.map_filterMap]
    exact hRun.filter_eq fun deed => deed.isTold.change_eq
  constructor
  · exact hRun.leads
  · exact hRun.filterMap_eq fun deed => deed.isTold.reading_eq
  · exact hRun.filterMap_eq fun deed => deed.isTold.entry_eq
  · intro front text result back hText
    exact caused_of_deeds_eq hText
  · exact hMoved
  · exact hRun.leads.chain
  · rw [← List.filterMap_eq_nil_iff, ← List.map_eq_nil_iff,
      ← hMoved, List.filter_eq_nil_iff]
    simp
  · exact hRun.filterMap_eq fun deed => deed.isTold.written_eq
  · exact hRun.filter_eq fun deed => deed.isTold.warning_eq

/- The session moves, and the redirect writes where it is. -/
example :
    let shell : Shell :=
      ⟨Registry.standard Clock.unset Settings.standard, false⟩
    (shell.evaluate "cd / | pwd > f" none
        ⟨FileSystem.empty, ⟨"/b", "/b"⟩⟩).events =
      [.recognized "cd / | pwd > f" .pipeline,
        .recognized "cd / " .simple,
        .entered "cd" ["/"],
        .moved "/b" "/",
        .recognized "pwd > f" (.redirect .truncate),
        .recognized "pwd " .simple,
        .entered "pwd" [],
        .wrote 2 "/f" .truncate] := by
  decide +kernel

end Shell

end LineShell

import LineShell.Session.LineEditor
import LineShell.Session.Terminal

/-
  This module defines the loop that asks for a line,
  evaluates it and shows what came of it, until a line ends
  the session or no line is left.

  Key definitions include:
    * `ReadLoop.Transcript`
    * `ReadLoop.transcript`
-/

namespace LineShell

namespace ReadLoop

------------------------------------------------------------
-- Transcripts
------------------------------------------------------------

/-
  What a session leaves behind: the texts on its two
  channels, the world, the lines that were typed, and the
  message of the line editor if it failed.
-/
structure Transcript where
  out : String
  err : String
  world : World
  typed : List String
  failure : Option String

namespace Transcript

/- A transcript with more at its beginning. -/
def after
    (transcript : Transcript)
    (shown : Outcome.Shown)
    (typed : List String) : Transcript :=
  { transcript with
    out := shown.out ++ transcript.out
    err := shown.err ++ transcript.err
    typed := typed ++ transcript.typed }

end Transcript

/-
  The records of events, one a line, if they are wanted on
  the error channel.
-/
def records
    (verbose : Bool)
    (events : List Event) : String :=
  if verbose then
    String.join (events.map fun event =>
      event.record ++ "\n")
  else
    ""

/-
  The transcript of a session, given the replies of the line
  editor. The prompt is shown before each of them and before
  the end of what is typed is found.
-/
def transcript
    (prompt : String)
    (verbose : Bool) :
    List Reply → Terminal → Transcript
  | [], terminal => ⟨prompt, "", terminal.world, [], none⟩
  | .interrupted :: others, terminal =>
    (transcript prompt verbose others terminal).after
      ⟨prompt, ""⟩ []
  | .failed message :: _, terminal =>
    ⟨prompt, "", terminal.world, [], some message⟩
  | .line line :: others, terminal =>
    if isExit line then
      ⟨prompt, "", terminal.world, [line], none⟩
    else
      let run := terminal.runLine line
      let shown := run.outcome.report
      (transcript prompt verbose others
        (terminal.after line)).after
        ⟨prompt ++ shown.out,
          records verbose run.events ++ shown.err⟩
        [line]

end ReadLoop

end LineShell

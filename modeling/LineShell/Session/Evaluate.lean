import LineShell.Command.Registry
import LineShell.Session.Event

/-
  This module evaluates lines. A line is read as a directive;
  the sides of a pipe or redirect are lines of their own, and
  the left one runs to its end before anything else happens.
  The first failure ends the evaluation.

  Key definitions include:
    * `World`
    * `Run`
    * `Shell`
    * `Shell.enter`
    * `Shell.dispatch`
    * `Shell.write`
    * `Shell.evaluate`
-/

namespace LineShell

------------------------------------------------------------
-- Worlds and runs
------------------------------------------------------------

/- What commands may change. -/
structure World where
  files : FileSystem
  directories : Directories

/-
  What an evaluation leaves behind: its outcome, the world,
  and the events on the way.
-/
structure Run where
  outcome : Outcome
  world : World
  events : List Event

namespace Run

/- A run with more events at its beginning. -/
def after
    (run : Run)
    (events : List Event) : Run :=
  { run with events := events ++ run.events }

/-
  Goes on after a run that succeeded. A failure is handed on
  as it is.
-/
def andThen
    (first : Run)
    (next : Option String → World → Run) : Run :=
  if first.outcome.isSuccess then
    (next first.outcome.output first.world).after
      first.events
  else
    first

end Run

/-
  A shell knows commands, and whether what it shows goes
  straight to a user.
-/
structure Shell where
  registry : Registry
  interactive : Bool

namespace Shell

------------------------------------------------------------
-- Running a command
------------------------------------------------------------

/-
  Applies the last directory that a command asked to go to.
  Only a command that says so in its signature may go
  anywhere.
-/
def applyMove
    (signature : Signature)
    (requested : List String)
    (directories : Directories) :
    Directories × List Event :=
  match requested.getLast? with
  | none => (directories, [])
  | some directory =>
    if signature.changesDirectory then
      ({ directories with current := directory },
        [.moved directories.current directory])
    else
      (directories,
        [.moveIgnored signature.name directory])

/-
  Runs a command. Input reaches it only if its signature
  says so, and what it asked for is dropped if it fails.
-/
def enter
    (shell : Shell)
    (command : Command)
    (args : List String)
    (input : Option String)
    (toUser : Bool)
    (world : World) : Run :=
  let answer :=
    command.run
      { args := args
        input :=
          if command.signature.acceptsInput then
            input
          else
            none
        directories := world.directories
        catalogue := shell.registry.signatures
        interactive := toUser }
      world.files
  match answer.result with
  | .ok output =>
    let (directories, events) :=
      applyMove command.signature answer.requested
        world.directories
    ⟨.success output, ⟨answer.files, directories⟩, events⟩
  | .error fault =>
    ⟨.failure fault.status fault.message,
      ⟨answer.files, world.directories⟩,
      [.commandFailed command.name fault]⟩

/- A run that ends before any command is entered. -/
def refuse
    (status : Status)
    (message : String)
    (world : World) : Run :=
  ⟨.failure status message, world, []⟩

/- The run of a name under which there is no command. -/
def notFound
    (name : String)
    (world : World) : Run :=
  refuse .commandNotFound (name ++ ": command not found")
    world

/-
  Runs the command that is registered under a name, if it
  takes as many arguments as there are.
-/
def dispatch
    (shell : Shell)
    (name : String)
    (args : List String)
    (input : Option String)
    (toUser : Bool)
    (world : World) : Run :=
  match shell.registry.find? name with
  | none => notFound name world
  | some command =>
    if command.signature.accepts args.length then
      (shell.enter command args input toUser world).after
        [.entered name args]
    else
      refuse .invalidArguments
        (name ++ ": expected " ++
          command.signature.describeCount ++ ", got " ++
          toString args.length)
        world

------------------------------------------------------------
-- Redirecting
------------------------------------------------------------

/-
  Writes a text to the file that a redirect names. Without a
  text nothing is written, but the file is there.
-/
def write
    (mode : WriteMode)
    (target : String)
    (text : Option String)
    (world : World) : Run :=
  let path := world.directories.resolve target
  let bytes := (text.getD "").toByteArray
  match world.files.writeFile mode path bytes with
  | .ok files =>
    ⟨.success none, { world with files := files },
      [.wrote bytes.size path mode]⟩
  | .error cause =>
    ⟨.failure .ioError (path ++ ": " ++ cause.message),
      world, [.writeFailed path cause]⟩

------------------------------------------------------------
-- Evaluating a line
------------------------------------------------------------

/-
  Evaluates a line with the text that is piped into it. What
  a stage shows goes to the user only if nothing comes after
  the stage.
-/
def evaluateFor
    (shell : Shell)
    (line : String)
    (input : Option String)
    (toUser : Bool)
    (world : World) : Run :=
  match hLine :
      Directive.ofLine shell.registry.contains line with
  | .error fault =>
    (refuse .syntaxError fault.message world).after
      [.unrecognized line fault]
  | .ok .empty =>
    Run.after ⟨.success none, world, []⟩
      [.recognized line .empty]
  | .ok (.unregistered name _) =>
    (notFound name world).after
      [.recognized line .unregistered]
  | .ok (.simple name args) =>
    (shell.dispatch name args input toUser world).after
      [.recognized line .simple]
  | .ok (.pipeline left right) =>
    have := Directive.length_pipeline_lt hLine
    ((shell.evaluateFor left input false world).andThen
      fun output next =>
        shell.evaluateFor right output toUser next).after
      [.recognized line .pipeline]
  | .ok (.redirect mode left target) =>
    have := Directive.length_redirect_lt hLine
    ((shell.evaluateFor left input false world).andThen
      fun output next => write mode target output next).after
      [.recognized line (.redirect mode)]
termination_by line.length
decreasing_by all_goals omega

/- Evaluates a line as it is given to the shell. -/
def evaluate
    (shell : Shell)
    (line : String)
    (input : Option String)
    (world : World) : Run :=
  shell.evaluateFor line input shell.interactive world

end Shell

end LineShell

import LineShell.CommandLine.Options
import LineShell.Session.ReadLoop
import LineShell.Settings.Overlay
import LineShell.Settings.Writer

/-
  This module runs the program: it reads its arguments and
  settings, and then evaluates one line or asks for many.

  Key definitions include:
    * `Start`
    * `Finish`
    * `CommandLine.complaint`
    * `CommandLine.evaluateOne`
    * `CommandLine.converse`
    * `CommandLine.run`
-/

namespace LineShell

/-
  What the program finds when it starts: its arguments, its
  input, the current and the home directory, the clock, the
  file system, the line editor, and the words for a document
  that is refused.
-/
structure Start where
  args : List String
  input : List UInt8
  directory : String
  home : String
  clock : Clock
  files : FileSystem
  editor : LineEditor := LineEditor.plain
  refusal : String → String := fun _ => "TOML parse error"

/- What the program leaves behind. -/
structure Finish where
  code : Nat
  out : String
  err : String
  files : FileSystem

/- An end with more on the error channel before it. -/
def Finish.saying
    (finish : Finish)
    (said : String) : Finish :=
  { finish with err := said ++ finish.err }

namespace CommandLine

------------------------------------------------------------
-- Words of the program
------------------------------------------------------------

/- The name and version of the program. -/
def versionText : String :=
  "lineterm 0.1.0\n"

/- How the program is started. -/
def helpText : String :=
  "Line-oriented command interpreter with pipes, " ++
    "redirects, and file-system builtins\n\n" ++
    "Usage: lineterm [OPTIONS]\n\n" ++
    "Options:\n" ++
    "  -c, --command <LINE>  Evaluate one line and exit\n" ++
    "      --json            With -c, print the outcome " ++
    "as JSON instead of plain text\n" ++
    "      --config <FILE>   Use this config overlay " ++
    "instead of ~/.config/lineterm/config.toml\n" ++
    "      --dump-config     Print the merged " ++
    "configuration and exit\n" ++
    "  -v, --verbose         Log at debug level to stderr\n" ++
    "  -h, --help            Print help\n" ++
    "  -V, --version         Print version\n"

/- The line that ends a session. -/
def farewell : String :=
  "Exiting...\n"

/- The report of a line editor that fails with a message. -/
def editorReport
    (message : String) : String :=
  "Error: line editor failed\n\nCaused by:\n    " ++
    message ++ "\n"

/- The report of settings that no document can hold. -/
def unwritableText : String :=
  "Error: serializing config\n\nCaused by:\n    " ++
    "out-of-range value for u64 type\n"

/- The code of a program that was started in a wrong way. -/
def misuseCode : Nat := 2

/- The code of a program whose line editor fails. -/
def editorCode : Nat := 1

/- The code of a program whose settings cannot be written. -/
def unwritableCode : Nat := 1

------------------------------------------------------------
-- Files of the program
------------------------------------------------------------

/- The file of a user's choices. -/
def userConfigPath
    (home : String) : String :=
  Path.join home ".config/lineterm/config.toml"

/- The file of choices that the program goes by. -/
def choicesPath
    (start : Start)
    (options : Options) : String :=
  options.config.getD (userConfigPath start.home)

/- What the file of choices holds, if it can be read. -/
def choices
    (start : Start)
    (options : Options) : Option ByteArray :=
  (start.files.readFile
    (Path.join start.directory
      (choicesPath start options))).toOption

/-
  The settings with the choices of a file. A file that is
  not there chooses nothing.
-/
def settingsFrom
    (start : Start)
    (options : Options) : Settings :=
  Settings.load (choices start options)

/-
  What is said of a file of choices that is a text, but none
  that can be understood.
-/
def complaint
    (start : Start)
    (options : Options) : String :=
  match choices start options with
  | none => ""
  | some bytes =>
    match Utf8.decode? bytes, Overlay.ofBytes? bytes with
    | some text, none =>
      "lineterm: config parse error in " ++
        choicesPath start options ++ ": " ++
        start.refusal text ++ "\n"
    | _, _ => ""

/- The file system with the directory of a path, if possible. -/
def withParent
    (files : FileSystem)
    (path : String) : FileSystem :=
  match Path.parent? path with
  | none => files
  | some parent => (files.makeDirectories parent).files

/-
  The file system with the log file, which is made if that
  is possible.
-/
def withLog
    (start : Start)
    (settings : Settings) : FileSystem :=
  match settings.logPath start.home with
  | none => start.files
  | some raw =>
    let path := Path.join start.directory raw
    let files := withParent start.files path
    match files.writeFile .append path ByteArray.empty with
    | .ok opened => opened
    | .error _ => files

/- The history of earlier sessions, if it has a file. -/
def earlierHistory
    (start : Start)
    (settings : Settings)
    (files : FileSystem) : start.editor.Memory :=
  match settings.historyPath start.home with
  | none => start.editor.fresh
  | some raw =>
    start.editor.load files (Path.join start.directory raw)
      start.editor.fresh

/- The file system with a history, if it has a file. -/
def withHistory
    (start : Start)
    (settings : Settings)
    (memory : start.editor.Memory)
    (files : FileSystem) : FileSystem :=
  match settings.historyPath start.home with
  | none => files
  | some raw =>
    let path := Path.join start.directory raw
    start.editor.save (withParent files path) path memory

------------------------------------------------------------
-- Running
------------------------------------------------------------

/- A terminal for a start of the program. -/
def terminal
    (start : Start)
    (settings : Settings)
    (interactive : Bool) : Terminal :=
  Terminal.start start.clock settings interactive
    start.directory (withLog start settings)

/-
  Evaluates one line. Its outcome is shown as data or as a
  user sees it, and its status gives the code.
-/
def evaluateOne
    (start : Start)
    (settings : Settings)
    (options : Options)
    (line : String) : Finish :=
  let terminal := terminal start settings false
  if isExit line then
    ⟨0, "", "", terminal.world.files⟩
  else
    let run := terminal.runLine line
    let records :=
      ReadLoop.records options.verbose run.events
    let shown := run.outcome.report
    let code := run.outcome.status.exitCode
    if options.json then
      ⟨code, run.outcome.json ++ "\n", records,
        run.world.files⟩
    else
      ⟨code, shown.out, records ++ shown.err,
        run.world.files⟩

/-
  Asks for lines and evaluates them until the session ends.
  The history is loaded before the first line and saved
  behind the last one.
-/
def converse
    (start : Start)
    (settings : Settings)
    (options : Options) : Finish :=
  let terminal := terminal start settings true
  let editor := start.editor
  match editor.obstacle with
  | some message =>
    ⟨editorCode, "", editorReport message,
      terminal.world.files⟩
  | none =>
    let memory :=
      earlierHistory start settings terminal.world.files
    let transcript :=
      ReadLoop.transcript (editor.prompted settings.prompt)
        options.verbose (editor.replies start.input) terminal
    match transcript.failure with
    | none =>
      ⟨0, transcript.out ++ farewell, transcript.err,
        withHistory start settings
          (editor.keep transcript.typed memory)
          transcript.world.files⟩
    | some message =>
      ⟨editorCode, transcript.out,
        transcript.err ++ editorReport message,
        transcript.world.files⟩

/- Shows the settings as a document. -/
def dump
    (start : Start)
    (settings : Settings) : Finish :=
  match settings.toToml? with
  | some text => ⟨0, text, "", start.files⟩
  | none => ⟨unwritableCode, "", unwritableText, start.files⟩

/-
  Runs the program with its options. A file of choices that
  cannot be understood is reported before anything else.
-/
def runWith
    (start : Start)
    (options : Options) : Finish :=
  let settings := settingsFrom start options
  let finish :=
    if options.dumpConfig then
      dump start settings
    else
      match options.command with
      | some line => evaluateOne start settings options line
      | none => converse start settings options
  finish.saying (complaint start options)

/- Runs the program. -/
def run
    (start : Start) : Finish :=
  match Request.ofArgs start.args with
  | .error misuse =>
    ⟨misuseCode, "", misuse.message ++ "\n", start.files⟩
  | .ok .help => ⟨0, helpText, "", start.files⟩
  | .ok .version => ⟨0, versionText, "", start.files⟩
  | .ok (.run options) => runWith start options

end CommandLine

end LineShell

/-
  This module reads the arguments with which the program is
  started.

  Key definitions include:
    * `Options`
    * `Request`
    * `Request.ofArgs`
-/

namespace LineShell

------------------------------------------------------------
-- Options
------------------------------------------------------------

/- What the arguments of the program may choose. -/
structure Options where
  command : Option String
  json : Bool
  config : Option String
  dumpConfig : Bool
  verbose : Bool
deriving DecidableEq, Repr

namespace Options

/- The options of a program without arguments. -/
def empty : Options :=
  ⟨none, false, none, false, false⟩

end Options

/- Why arguments are not understood. -/
inductive Misuse where
  | unexpected (argument : String)
  | repeated (option : String)
  | missingValue (option : String)
  | unwantedValue (option : String)
  | missingCommand
deriving DecidableEq, Repr

namespace Misuse

/- The sentence that reports a misuse. -/
def message :
    Misuse → String
  | unexpected argument =>
    "error: unexpected argument '" ++ argument ++ "' found"
  | repeated option =>
    "error: the argument '" ++ option ++
      "' cannot be used multiple times"
  | missingValue option =>
    "error: a value is required for '" ++ option ++
      "' but none was supplied"
  | unwantedValue option =>
    "error: unexpected value for '" ++ option ++ "' found"
  | missingCommand =>
    "error: the argument '--command' was not provided"

end Misuse

/- What a user wants from the program. -/
inductive Request where
  | run (options : Options)
  | help
  | version
deriving DecidableEq, Repr

------------------------------------------------------------
-- Switches
------------------------------------------------------------

/- The options by meaning. -/
inductive Switch where
  | command
  | config
  | json
  | dumpConfig
  | verbose
  | help
  | version
deriving DecidableEq, Repr

namespace Switch

/- The word for an option. -/
def word :
    Switch → String
  | command => "--command"
  | config => "--config"
  | json => "--json"
  | dumpConfig => "--dump-config"
  | verbose => "--verbose"
  | help => "--help"
  | version => "--version"

/- Every option. -/
def all : List Switch :=
  [command, config, json, dumpConfig, verbose, help, version]

/- The option of a word. -/
def ofWord?
    (text : String) : Option Switch :=
  all.find? (·.word = text)

/- The option of a letter. -/
def ofLetter? :
    Char → Option Switch
  | 'c' => some command
  | 'v' => some verbose
  | 'h' => some help
  | 'V' => some version
  | _ => none

/- An option is followed by a value. -/
def takesValue :
    Switch → Bool
  | command => true
  | config => true
  | _ => false

end Switch

------------------------------------------------------------
-- Applying
------------------------------------------------------------

/-
  What the arguments so far lead to: more options, or an
  answer that leaves the other arguments unread.
-/
abbrev Reached :=
  Except Misuse (Options ⊕ Request)

namespace Options

/- Options with a value for one that takes values. -/
def withValue
    (options : Options)
    (switch : Switch)
    (value : String) : Except Misuse Options :=
  match switch with
  | .command =>
    if options.command.isSome then
      .error (.repeated switch.word)
    else
      .ok { options with command := some value }
  | .config =>
    if value = "" then
      .error (.missingValue switch.word)
    else if options.config.isSome then
      .error (.repeated switch.word)
    else
      .ok { options with config := some value }
  | _ => .error (.unwantedValue switch.word)

/- Options with one more of those that take no value. -/
def withFlag
    (options : Options)
    (switch : Switch) : Reached :=
  match switch with
  | .json =>
    if options.json then
      .error (.repeated switch.word)
    else
      .ok (.inl { options with json := true })
  | .dumpConfig =>
    if options.dumpConfig then
      .error (.repeated switch.word)
    else
      .ok (.inl { options with dumpConfig := true })
  | .verbose =>
    if options.verbose then
      .error (.repeated switch.word)
    else
      .ok (.inl { options with verbose := true })
  | .help => .ok (.inr .help)
  | .version => .ok (.inr .version)
  | _ => .error (.missingValue switch.word)

end Options

------------------------------------------------------------
-- Arguments
------------------------------------------------------------

namespace Request

/- The shapes of an argument. -/
inductive Shape where
  | plain
  | long (word : String) (value : Option String)
  | short (letters : List Char)
  | separator
deriving DecidableEq, Repr

/- The shape of an argument. A single dash is a plain one. -/
def shapeOf
    (argument : String) : Shape :=
  match argument.toList with
  | ['-'] => .plain
  | ['-', '-'] => .separator
  | '-' :: '-' :: name =>
    let word := name.takeWhile (· ≠ '=')
    .long (String.ofList ('-' :: '-' :: word))
      (match name.drop word.length with
      | [] => none
      | _ :: value => some (String.ofList value))
  | '-' :: letters => .short letters
  | _ => .plain

/-
  What letters after a single dash lead to: options, an
  answer, or an option that waits for its value. The text
  after the letter of such an option is its value.
-/
def readLetters
    (argument : String) :
    List Char → Options →
      Except Misuse ((Options × Option Switch) ⊕ Request)
  | [], options => .ok (.inl (options, none))
  | letter :: rest, options =>
    match Switch.ofLetter? letter with
    | none => .error (.unexpected argument)
    | some switch =>
      if switch.takesValue then
        match rest with
        | [] => .ok (.inl (options, some switch))
        | '=' :: value =>
          (options.withValue switch (String.ofList value)).map
            fun options => .inl (options, none)
        | value =>
          (options.withValue switch (String.ofList value)).map
            fun options => .inl (options, none)
      else
        match options.withFlag switch with
        | .error misuse => .error misuse
        | .ok (.inr request) => .ok (.inr request)
        | .ok (.inl options) =>
          readLetters argument rest options

/-
  What one argument leads to, if no option waits for it as
  its value.
-/
def readArgument
    (argument : String)
    (options : Options) :
    Except Misuse ((Options × Option Switch) ⊕ Request) :=
  match shapeOf argument with
  | .plain => .error (.unexpected argument)
  | .separator => .ok (.inl (options, none))
  | .short letters => readLetters argument letters options
  | .long word value =>
    match Switch.ofWord? word with
    | none => .error (.unexpected argument)
    | some switch =>
      match switch.takesValue, value with
      | true, none => .ok (.inl (options, some switch))
      | true, some value =>
        (options.withValue switch value).map fun options =>
          .inl (options, none)
      | false, some _ => .error (.unwantedValue word)
      | false, none =>
        (options.withFlag switch).map fun result =>
          result.map (·, none) id

/-
  What arguments lead to after the options so far, of which
  one may wait for its value. Only an argument without a
  dash can be such a value, and after two dashes nothing may
  follow.
-/
def readArgs :
    List String → Option Switch → Options →
      Except Misuse Request
  | [], some switch, _ =>
    .error (.missingValue switch.word)
  | [], none, options =>
    if options.json ∧ options.command.isNone then
      .error .missingCommand
    else
      .ok (.run options)
  | argument :: others, some switch, options =>
    match shapeOf argument with
    | .plain =>
      match options.withValue switch argument with
      | .error misuse => .error misuse
      | .ok options => readArgs others none options
    | _ => .error (.missingValue switch.word)
  | argument :: others, none, options =>
    match readArgument argument options, shapeOf argument,
      others with
    | .error misuse, _, _ => .error misuse
    | .ok (.inr request), _, _ => .ok request
    | .ok (.inl _), .separator, next :: _ =>
      .error (.unexpected next)
    | .ok (.inl (options, waiting)), _, _ =>
      readArgs others waiting options

/- What the arguments of the program ask for. -/
def ofArgs
    (args : List String) : Except Misuse Request :=
  readArgs args none Options.empty

end Request

end LineShell

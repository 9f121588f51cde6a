import ValidatorGen.Loading

/-!
# Arguments

What can be asked for on the command line, and how the arguments are read.

Arguments belong to a level: those before the name of a command to the top, those after it to the
command. A switch stands alone. An option has a value, in the same argument or in the next one; the
option for inputs takes all arguments up to the next switch or option. The values of an option are
looked at when the next switch or option is met, or at the end, unless they are in one argument with
it.

Reading arguments has two parts: `readLevel` collects what was given, in order and with the first
fault, and `commandOf` makes a command of it, which can only fail for want of an input. Which
text of help is shown is not decided here, only that help or a fault is the answer.
-/

namespace ValidatorGen.CommandLine

/-! ## What is asked for -/

/-- Whether output is meant for people or for programs. -/
inductive OutputFormat where
  | human
  | json
  deriving Repr, DecidableEq

/-- How the generator is configured. -/
structure GeneratorSettings where
  config : Option String
  reportDropped : Bool
  deriving Repr, DecidableEq

/-- The settings that running the generator takes. -/
structure RunSettings where
  input : InputSettings
  generator : GeneratorSettings
  format : OutputFormat
  /-- Only print the settings. -/
  noOp : Bool
  deriving Repr, DecidableEq

/-- The commands with their settings. -/
inductive Command where
  | generate (settings : RunSettings) (outDir : Option String)
  | check (settings : RunSettings)
  | catalog (format : OutputFormat)
  deriving Repr, DecidableEq

/-- A command with the switches that every command has. -/
structure Invocation where
  command : Command
  /-- How many times more logging is asked for. -/
  verbosity : Nat
  noColor : Bool
  deriving Repr, DecidableEq

/-- Why arguments do not make an invocation. -/
inductive UsageError where
  | help
  | version
  | noArguments
  | noCommand
  | unknownCommand
  | missingInput
  | badValue
  | unknownArgument
  | givenTwice
  | superfluousValue
  deriving Repr, DecidableEq

/-! ## Switches and options -/

/-- The switches. -/
inductive Switch where
  | byLine
  | reportDropped
  | noOp
  | verbose
  | noColor
  | help
  | version
  deriving Repr, DecidableEq

/-- The options. -/
inductive Setting where
  | pointer
  | filter
  | input
  | config
  | outDir
  | format
  deriving Repr, DecidableEq

/-- What an argument that starts with a dash can name. -/
inductive Flag where
  | switch (s : Switch)
  | setting (s : Setting)
  deriving Repr, DecidableEq

/-- Where arguments stand. -/
inductive Level where
  | top
  | generate
  | check
  | catalog
  deriving Repr, DecidableEq

namespace Level

/-- The level that the name of a command opens. -/
def ofCommand? : String → Option Level
  | "generate" => some .generate
  | "check" => some .check
  | "catalog" => some .catalog
  | _ => none

/-- Whether the command runs the generator. -/
def isRun : Level → Bool
  | .generate | .check => true
  | .top | .catalog => false

/-- The flag of a long name. -/
def long? (level : Level) (name : String) : Option Flag :=
  match name with
  | "help" => some (.switch .help)
  | "verbose" => some (.switch .verbose)
  | "no-color" => some (.switch .noColor)
  | "version" => if level = .top then some (.switch .version) else none
  | "out-dir" => if level = .generate then some (.setting .outDir) else none
  | "format" => if level = .top then none else some (.setting .format)
  | "ndjson" => if level.isRun then some (.switch .byLine) else none
  | "json-pointer" => if level.isRun then some (.setting .pointer) else none
  | "jq-expr" => if level.isRun then some (.setting .filter) else none
  | "input" => if level.isRun then some (.setting .input) else none
  | "config" => if level.isRun then some (.setting .config) else none
  | "report-dropped" => if level.isRun then some (.switch .reportDropped) else none
  | "no-op" => if level.isRun then some (.switch .noOp) else none
  | _ => none

/-- The flag of a short name. -/
def short? (level : Level) (name : Char) : Option Flag :=
  match name with
  | 'h' => some (.switch .help)
  | 'v' => some (.switch .verbose)
  | 'V' => if level = .top then some (.switch .version) else none
  | 'i' => if level.isRun then some (.setting .input) else none
  | 'o' => if level = .generate then some (.setting .outDir) else none
  | _ => none

end Level

namespace OutputFormat

def ofName? : String → Option OutputFormat
  | "human" => some .human
  | "json" => some .json
  | _ => none

end OutputFormat

/-- Whether an option can have a value. Paths are not empty. -/
def Setting.accepts : Setting → String → Bool
  | .format, text => (OutputFormat.ofName? text).isSome
  | .config, text | .outDir, text => !text.isEmpty
  | _, _ => true

/-! ## What has been given -/

/-- What has been given at one level. -/
structure Given where
  /-- The switches, each as often as it was given. -/
  switches : List Switch
  /-- The options, each with its values. -/
  settings : List (Setting × List String)
  /-- The last option, if its values have not been looked at. -/
  pending : Option (Setting × List String)

namespace Given

def nothing : Given := ⟨[], [], none⟩

/-- Gives an option. Only inputs can be given more than once. -/
def put (g : Given) (s : Setting) (texts : List String) : Except UsageError Given :=
  if texts.isEmpty then .error .badValue
  else if s ≠ .input ∧ g.settings.any (·.1 = s) then .error .givenTwice
  else if texts.all s.accepts then .ok { g with settings := g.settings ++ [(s, texts)] }
  else .error .badValue

/-- Looks at the values of the last option, which is then no longer open for more. -/
def settle (g : Given) : Except UsageError Given :=
  match g.pending with
  | none => .ok g
  | some (s, texts) => { g with pending := none }.put s texts

/-- Gives a switch. Only the one for more logging can be given more than once. -/
def turnOn (g : Given) (s : Switch) : Except UsageError Given := do
  let g ← g.settle
  match s with
  | .help => throw .help
  | .version => throw .version
  | .verbose => return { g with switches := s :: g.switches }
  | s =>
    if s ∈ g.switches then throw .givenTwice
    else return { g with switches := s :: g.switches }

/-- Starts an option whose values follow. -/
def start (g : Given) (s : Setting) : Except UsageError Given := do
  return { ← g.settle with pending := some (s, []) }

/-- Gives an option together with its value. -/
def putAttached (g : Given) (s : Setting) (value : List Char) : Except UsageError Given := do
  (← g.settle).put s [String.ofList value]

/-- Takes an argument as a value of the last option, if it is open for one. -/
def take? (g : Given) (text : String) : Option Given :=
  match g.pending with
  | some (.input, texts) => some { g with pending := some (.input, texts ++ [text]) }
  | some (s, []) => some { g with pending := some (s, [text]) }
  | _ => none

/-- The values of an option. -/
def texts (g : Given) (s : Setting) : List String :=
  (g.settings.filter (·.1 = s)).flatMap Prod.snd

def text? (g : Given) (s : Setting) : Option String :=
  (g.texts s).head?

def has (g : Given) (s : Switch) : Bool :=
  g.switches.contains s

/-- The requested logging, which is counted up to a limit. -/
def verbosity (g : Given) : Nat :=
  min (g.switches.count .verbose) 255

/-- The output format; people are served unless something else is given. -/
def format (g : Given) : OutputFormat :=
  ((g.text? .format).bind OutputFormat.ofName?).getD .human

end Given

/-! ## Reading -/

/-- An argument after two dashes: a name, and a value if there is an equals sign. -/
def readLong (level : Level) (g : Given) (text : List Char) : Except UsageError Given :=
  match text.span (· ≠ '=') with
  | (name, rest) =>
    match level.long? (String.ofList name), rest with
    | none, _ => .error .unknownArgument
    | some (.switch s), [] => g.turnOn s
    | some (.switch _), _ :: _ => .error .superfluousValue
    | some (.setting s), [] => g.start s
    | some (.setting s), _ :: value => g.putAttached s value

/-- An argument after one dash: switches, and possibly an option. What is left after the name of an
option is its value. -/
def readShort (level : Level) (g : Given) : List Char → Except UsageError Given
  | [] => .ok g
  | name :: rest =>
    match level.short? name, rest with
    | none, _ => .error .unknownArgument
    | some (.switch s), rest => do readShort level (← g.turnOn s) rest
    | some (.setting s), [] => g.start s
    | some (.setting s), '=' :: value => g.putAttached s value
    | some (.setting s), value => g.putAttached s value

/-- What follows the arguments of a level. -/
inductive Opened where
  | nothing
  | command (level : Level) (rest : List String)
  | help (rest : List String)

/-- The command that an argument names at a level. -/
def opened? (level : Level) (text : String) (rest : List String) : Option Opened :=
  if level ≠ .top then none
  else if text = "help" then some (.help rest)
  else (Level.ofCommand? text).map fun l => .command l rest

/-- The fault of an argument that has no place. -/
def stray (level : Level) (afterDashes : Bool) (text : String) : UsageError :=
  if level ≠ .top then .unknownArgument
  else if afterDashes ∧ (opened? level text []).isSome then .unknownArgument
  else .unknownCommand

/-- The arguments of a level. There is no place for any after two dashes that stand alone. -/
def readLevel (level : Level) (g : Given) :
    List String → Except UsageError (Given × Opened)
  | [] => do return (← g.settle, .nothing)
  | text :: rest =>
    match text.toList with
    | ['-', '-'] =>
      match rest with
      | [] => do return (← g.settle, .nothing)
      | next :: _ => .error (stray level true next)
    | '-' :: '-' :: name => do readLevel level (← readLong level g name) rest
    | '-' :: c :: cs => do readLevel level (← readShort level g (c :: cs)) rest
    | _ =>
      -- An option that is open for a value takes even the name of a command.
      match g.take? text, opened? level text rest with
      | some g, _ => readLevel level g rest
      | none, some opened => .ok (g, opened)
      | none, none => .error (stray level false text)

/-- What is asked for by `help`: only commands can be explained. -/
def readHelp : List String → UsageError
  | [] => .help
  | [name] => if name = "help" ∨ (Level.ofCommand? name).isSome then .help else .unknownCommand
  | _ => .unknownCommand

/-- The settings for running the generator. -/
def runSettings (g : Given) : Except UsageError RunSettings :=
  if g.texts .input = [] then .error .missingInput
  else .ok {
    input := {
      byLine := g.has .byLine
      pointer := g.text? .pointer
      filter := g.text? .filter
      inputs := g.texts .input }
    generator := { config := g.text? .config, reportDropped := g.has .reportDropped }
    format := g.format
    noOp := g.has .noOp }

/-- The command of a level. -/
def commandOf (level : Level) (g : Given) : Except UsageError Command :=
  match level with
  | .top => .error .noCommand
  | .generate => (runSettings g).map fun settings => .generate settings (g.text? .outDir)
  | .check => (runSettings g).map .check
  | .catalog => .ok (.catalog g.format)

/-- The invocation that arguments make, the name of the program not being one of them. Where a
switch is given at both levels, the one of the command counts. -/
def Invocation.ofArguments (arguments : List String) : Except UsageError Invocation := do
  let (top, opened) ← readLevel .top .nothing arguments
  match opened with
  | .nothing => throw (if top.switches.isEmpty then .noArguments else .noCommand)
  | .help rest => throw (readHelp rest)
  | .command level rest =>
    let (g, _) ← readLevel level .nothing rest
    return {
      command := ← commandOf level g
      verbosity := if g.verbosity = 0 then top.verbosity else g.verbosity
      noColor := g.has .noColor || top.has .noColor }

end ValidatorGen.CommandLine

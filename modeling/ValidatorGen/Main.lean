import ValidatorGen.CommandLine.Run

/-!
# The program

Files of the operating system, and the command line in front of them. This is the only module that
does anything: it gives `Volume` its instance for actions, answers faults of usage with the texts a
user sees, and turns an outcome into an exit code.
-/

namespace ValidatorGen

/-- The error that the operating system gave. -/
def FileError.ofSystem : IO.Error → FileError
  | .noFileOrDirectory .. => .notFound
  | .alreadyExists .. => .alreadyThere
  -- Several errors share a sort, and are told apart by the number of the operating system.
  | .inappropriateType _ 20 _ => .notDirectory
  | .inappropriateType _ 21 _ => .isDirectory
  | .invalidArgument _ 36 _ => .nameTooLong
  | e => .other (toString e)

/-- An action whose failure is a result. -/
def attempt {α : Type} (action : IO α) : IO (Except FileError α) := do
  try
    return .ok (← action)
  catch e =>
    return .error (.ofSystem e)

/-- A path as the root of what lies there. -/
def rootAt (path : String) : IO.FS.DirEntry :=
  ⟨path, ""⟩

/-- The files of the operating system. -/
instance : Volume IO where
  readBytes path := attempt (IO.FS.readBinFile path)
  writeText path content := attempt (IO.FS.writeFile path content)
  makeDirectory path := attempt (IO.FS.createDir path)
  kind? path := do
    if ← (rootAt path).root.isDir then return some .directory
    else if ← (rootAt path).root.pathExists then return some .file
    else return none
  names path := attempt do
    return (← (rootAt path).root.readDir).toList.map IO.FS.DirEntry.fileName

namespace CommandLine

/-- How the program is used. -/
def usage : String :=
  "Usage: fast-validate <generate|check|catalog> [OPTIONS]\n\n" ++
  "generate and check:\n" ++
  "  -i, --input <INPUT>...         paths of snapshots, or quoted glob patterns\n" ++
  "      --ndjson                   every line of an input is a document\n" ++
  "      --json-pointer <POINTER>   selects the snapshot in each document\n" ++
  "      --jq-expr <FILTER>         turns each document into snapshots\n" ++
  "      --config <FILE>            configuration of the generator\n" ++
  "      --report-dropped           report constraints over non-numeric operands\n" ++
  "      --no-op                    print the arguments only\n" ++
  "  -o, --out-dir <DIR>            directory for the sources (generate only)\n\n" ++
  "all commands:\n" ++
  "      --format <human|json>\n" ++
  "  -v, --verbose\n" ++
  "      --no-color\n" ++
  "  -h, --help\n" ++
  "  -V, --version                  before the command only\n"

def version : String :=
  "fast-validate 0.1.0\n"

def UsageError.message : UsageError → String
  | .help | .version | .noArguments => ""
  | .noCommand => "a command is required"
  | .unknownCommand => "unrecognized command"
  | .missingInput => "--input is required"
  | .badValue => "invalid or missing value"
  | .unknownArgument => "unexpected argument"
  | .givenTwice => "an argument cannot be used multiple times"
  | .superfluousValue => "unexpected value for a flag"

/-- Answers arguments that make no invocation. -/
def answerUsage (e : UsageError) : IO UInt32 := do
  match e with
  | .help => IO.print usage; return 0
  | .version => IO.print version; return 0
  | .noArguments => IO.eprint usage; return 2
  -- Help and version are asked for, so they go to the output; faults go to the stream for errors.
  | e => IO.eprint ("error: " ++ e.message ++ "\n\n" ++ usage); return 2

/-- The causes of a failure, numbered if there are several. -/
def causeLines (causes : List String) : String :=
  match causes with
  | [] => ""
  | [cause] => "\n\nCaused by:\n    " ++ cause
  | causes => "\n\nCaused by:" ++ String.join (causes.zipIdx.map fun (cause, i) =>
      "\n    " ++ i.repr ++ ": " ++ cause)

/-- Answers a failure. -/
def answerFailure (chain : List String) : IO UInt32 := do
  IO.eprintln ("Error: " ++ chain.headD "" ++ causeLines chain.tail)
  return 1

/-- Prints what a command gave. -/
def answerPrinted (p : Printed) : IO UInt32 := do
  IO.print p.output
  IO.eprint p.remarks
  return if p.hasErrors then 1 else 0

/-- Whether diagnostics are colored by default. -/
def usesColor : IO Bool := do
  if (← IO.getEnv "NO_COLOR").isSome then return false
  else (← IO.getStdout).isTty

/-- The program, for arguments without its name. -/
def answer (arguments : List String) : IO UInt32 := do
  match Invocation.ofArguments arguments with
  | .error e => answerUsage e
  | .ok invocation =>
    match ← invocation.run (← usesColor) with
    -- A pass that is broken off ends as a program that gives itself up does.
    | .error _ => IO.eprintln "the pass was broken off"; return 101
    | .ok (.failed chain) => answerFailure chain
    | .ok (.finished printed) => answerPrinted printed

end CommandLine

end ValidatorGen

def main (arguments : List String) : IO UInt32 :=
  ValidatorGen.CommandLine.answer arguments

import ValidatorGen.CommandLine.Outline
import ValidatorGen.ConfigFile
import ValidatorGen.Diagnostic.Terminal
import ValidatorGen.Generation.Pass
import ValidatorGen.Json.Writer
import ValidatorGen.Text.Padded

/-!
# Running commands

The configuration is read before the snapshots. Sources are written before anything is printed, so
that a command that fails prints nothing.

A run can end in three ways. It gives an `Outcome`, which is a text with an exit code or a chain of
reasons; or the pass inside it is broken off by an operand that its reader cannot take apart, which
is the `Number.Abort` around everything. Logging is not modelled: nothing that a command prints or
writes depends on it.
-/

namespace ValidatorGen.CommandLine

open Files

/-- What a command prints, and whether it reports errors by its exit code. -/
structure Printed where
  hasErrors : Bool
  output : String
  /-- What goes to the stream for errors. -/
  remarks : String
  deriving Repr, DecidableEq

/-- How a command ends. -/
inductive Outcome where
  | finished (printed : Printed)
  /-- The reasons of a failure, each being the cause of the one before. -/
  | failed (chain : List String)
  deriving Repr, DecidableEq

/-! ## Printing -/

/-- The lines of a list of texts. -/
def linesOf (texts : List String) : String :=
  String.join (texts.map (· ++ "\n"))

def diagnosticLines (colored : Bool) (o : PassOutput) : String :=
  linesOf (o.diagnostics.map (·.render colored))

/-- A source with a line in front that says which one it is. -/
def artifactText (a : Artifact) : String :=
  linesOf ["// ==> " ++ a.hintName ++ " <==", a.source]

/-- What the command that generates prints; sources that were written are not printed. -/
def generatePrinted (colored written : Bool) (format : OutputFormat) (o : PassOutput) : Printed :=
  match format with
  | .json => ⟨o.hasErrors, linesOf [Json.pretty o.toJson], ""⟩
  | .human =>
    ⟨o.hasErrors, if written then "" else String.join (o.artifacts.map artifactText),
      diagnosticLines colored o⟩

/-- What the command that only checks prints. -/
def checkPrinted (colored : Bool) (format : OutputFormat) (o : PassOutput) : Printed :=
  match format with
  | .json =>
    ⟨o.hasErrors, linesOf [Json.pretty (.array (o.diagnostics.map Diagnostic.toJson))], ""⟩
  | .human =>
    ⟨o.hasErrors, "", diagnosticLines colored o ++ linesOf
      [o.artifacts.length.repr ++ " artifact(s) would be generated, " ++
        o.diagnostics.length.repr ++ " diagnostic(s)"]⟩

/-- One line of the catalog. -/
def descriptorLine (d : Descriptor) : String :=
  Text.padRight 12 d.code ++ " " ++ Text.padRight 8 d.severity.label ++ " " ++ d.title

def catalogPrinted (format : OutputFormat) : Printed :=
  match format with
  | .json => ⟨false, linesOf [Json.pretty (.array (catalog.map Descriptor.toJson))], ""⟩
  | .human => ⟨false, linesOf (catalog.map descriptorLine), ""⟩

/-- What is printed instead of running. -/
def outlinePrinted (i : Invocation) : Printed :=
  ⟨false, "", linesOf [i.outline]⟩

/-! ## Running -/

section

variable {m : Type → Type} [Monad m] [Volume m] [Number.Arithmetic]

/-- The configuration that settings describe. -/
def GeneratorSettings.load (s : GeneratorSettings) : m (Except ConfigFileError Config) := do
  let config ← match s.config with
    -- The option can only turn reports on: a configuration that asks for them is not overruled.
    | none => pure (.ok .standard)
    | some path => Config.fromFile path
  return config.map fun c => { c with reportDropped := c.reportDropped || s.reportDropped }

/-- What running the generator gives, unless a reason is in the way or the pass is broken off. -/
def RunSettings.generate (s : RunSettings) :
    m (Except Number.Abort (Except (List String) PassOutput)) := do
  match ← s.generator.load with
  | .error e => return .ok (.error e.chain)
  | .ok config =>
    match ← s.input.load with
    | .error e => return .ok (.error ("failed to load declaration snapshot" :: e.chain))
    | .ok compilation => return (ValidatorGen.generate config compilation).map .ok

/-- Writes sources into a directory, up to the first that cannot be written. Those written before
stay. Two sources of one name are written one over the other. -/
def writeSources (directory : String) : List Artifact → m (Except (List String) Unit)
  | [] => return .ok ()
  | a :: rest => do
    let path := Path.join directory a.hintName
    match ← Volume.writeText path a.source with
    | .error e => return .error ["failed to write " ++ path, e.message]
    | .ok () => writeSources directory rest

/-- Writes all sources into a directory, which is made if it is not there. -/
def writeArtifacts (directory : String) (o : PassOutput) : m (Except (List String) Unit) := do
  match ← Volume.makeDirectories directory with
  | .error e => return .error ["failed to create " ++ directory, e.message]
  | .ok () => writeSources directory o.artifacts

/-- Writes all sources if there is a directory for them. -/
def writeIfAsked (outDir : Option String) (o : PassOutput) : m (Except (List String) Unit) :=
  match outDir with
  | none => return .ok ()
  | some directory => writeArtifacts directory o

/-- Runs a command. -/
def Invocation.run (colored : Bool) (i : Invocation) : m (Except Number.Abort Outcome) := do
  let colored := colored && !i.noColor
  match i.command with
  | .catalog format => return .ok (.finished (catalogPrinted format))
  | .check s =>
    if s.noOp then return .ok (.finished (outlinePrinted i))
    return (← s.generate).map fun
      | .error chain => .failed chain
      | .ok o => .finished (checkPrinted colored s.format o)
  | .generate s outDir =>
    if s.noOp then return .ok (.finished (outlinePrinted i))
    -- Errors about some types do not keep the sources of the others from being written.
    match ← s.generate with
    | .error abort => return .error abort
    | .ok (.error chain) => return .ok (.failed chain)
    | .ok (.ok o) =>
      match ← writeIfAsked outDir o with
      | .error chain => return .ok (.failed chain)
      | .ok () => return .ok (.finished (generatePrinted colored outDir.isSome s.format o))

end

end ValidatorGen.CommandLine

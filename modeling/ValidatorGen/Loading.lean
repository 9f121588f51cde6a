import ValidatorGen.Files.Glob
import ValidatorGen.Filter.Evaluation
import ValidatorGen.Json.Pointer
import ValidatorGen.Snapshot.Format

/-!
# Loading snapshots

A compilation is put together from files. Each file holds one document, or one on each of its
lines. From every document a pointer selects a value, which a filter may turn into any number of
snapshots.

All paths are known before the first file is read. Within a file all documents are read before
anything is selected from the first. The order matters for the message: of several faults the one
that is met first in this order is reported, and nothing of the compilation is given.

The selection and the filter are functions in `Stages`, so what the loading does with documents
can be said without saying what a pointer or a filter is.
-/

namespace ValidatorGen

open Files

/-- Where snapshots come from. -/
structure InputSettings where
  /-- Whether every line of a file is a document. -/
  byLine : Bool
  pointer : Option String
  filter : Option String
  /-- Paths, or patterns of paths. -/
  inputs : List String
  deriving Repr, DecidableEq

/-- Why a compilation cannot be loaded. -/
inductive LoadError where
  | unreadable (path : String) (error : FileError)
  | notJson (path : String) (fault : Json.Fault)
  | notSnapshot (path : String) (fault : Json.Fault)
  | nothingSelected (pointer path : String)
  | filter (path : String) (problem : Filter.Problem)
  | glob (error : GlobError)
  | noMatch (pattern : String)

namespace LoadError

/-- The words of the error, with the path of the file or the pattern it is about. -/
def message : LoadError → String
  | .unreadable path error => "failed to read " ++ path ++ ": " ++ error.message
  | .notJson path fault => "invalid JSON in " ++ path ++ ": " ++ fault.detail
  | .notSnapshot path fault =>
    "invalid declaration snapshot in " ++ path ++ ": " ++ fault.message
  | .nothingSelected pointer path => "JSON pointer " ++ pointer ++ " selects nothing in " ++ path
  | .filter path problem => "failed to apply jq expression to " ++ path ++ ": " ++ problem.message
  | .glob error => error.message
  | .noMatch pattern => "glob pattern matched no files: " ++ pattern

/-- The message, and the one of what caused it if that is an error of its own. -/
def chain (e : LoadError) : List String :=
  match e with
  | .unreadable _ error => [e.message, error.message]
  | .notJson _ fault => [e.message, fault.detail]
  | _ => [e.message]

end LoadError

/-! ## Documents -/

/-- What is done with each document: a value is selected from it, and a filter makes any number of
values of that one. -/
structure Stages where
  /-- The value that is selected from a document, or the pointer that selects nothing. -/
  select : Json → Except String Json
  filter : Json → Except Filter.Problem (List Json)

/-- The stages that the settings ask for; without a pointer the whole document is selected, and
without a filter it stays as it is. -/
def InputSettings.stages (s : InputSettings) : Stages where
  select document :=
    match s.pointer with
    | none => .ok document
    | some pointer =>
      match document.at? pointer with
      | none => .error pointer
      | some value => .ok value
  filter value :=
    match s.filter with
    | none => .ok [value]
    | some filter => Filter.run filter value

namespace Stages

/-- The documents in the text of a file, which may hold one on each line. Lines without anything but
blanks hold none. -/
def documents (byLine : Bool) (text : String) : Except Json.Fault (List Json) :=
  if byLine then
    ((Text.lines text.toList).filter fun line => !(line.all Text.isBlank)).mapM fun line =>
      Json.parse (String.ofList line)
  else (Json.parse text).map ([·])

/-- The snapshots that a document gives. Every output of the filter has to be a snapshot. -/
def snapshots (s : Stages) (path : String) (document : Json) :
    Except LoadError (List Compilation) := do
  let value ← (s.select document).mapError (.nothingSelected · path)
  let values ← (s.filter value).mapError (.filter path)
  values.mapM fun v => (Compilation.ofJson v).mapError (.notSnapshot path)

/-- The snapshots in the text of a file. -/
def snapshotsOfText (s : Stages) (byLine : Bool) (path text : String) :
    Except LoadError (List Compilation) := do
  -- the last line is read as JSON before anything is selected from the first one
  let documents ← (documents byLine text).mapError (.notJson path)
  return (← documents.mapM (s.snapshots path)).flatten

/-! ## Files -/

/-- Characters that make a path a pattern. -/
def isWildcard (c : Char) : Bool :=
  c = '*' || c = '?' || c = '[' || c = '\x7b'

section

variable {m : Type → Type} [Monad m] [Volume m]

/-- The paths that an input stands for; a pattern has to stand for at least one. -/
def resolveInput (input : String) : m (Except LoadError (List String)) := do
  if input.toList.any isWildcard then
    match ← Glob.paths input with
    | .error e => return .error (.glob e)
    | .ok [] => return .error (.noMatch input)
    | .ok paths => return .ok paths
  else return .ok [input]

/-- The paths that inputs stand for. -/
def resolve : List String → m (Except LoadError (List String))
  | [] => return .ok []
  | input :: rest => do
    match ← resolveInput input with
    | .error e => return .error e
    | .ok paths => return (← resolve rest).map (paths ++ ·)

/-- The snapshots in a file. -/
def snapshotsOfFile (s : Stages) (byLine : Bool) (path : String) :
    m (Except LoadError (List Compilation)) := do
  match ← Volume.readText path with
  | .error e => return .error (.unreadable path e)
  | .ok text => return s.snapshotsOfText byLine path text

/-- A compilation with the snapshots of files added, in the order of the files and of the documents
in each. -/
def loadFiles (s : Stages) (byLine : Bool) (c : Compilation) :
    List String → m (Except LoadError Compilation)
  | [] => return .ok c
  | path :: rest => do
    match ← s.snapshotsOfFile byLine path with
    | .error e => return .error e
    | .ok snapshots => s.loadFiles byLine (snapshots.foldl Compilation.merge c) rest

/-- The compilation that the inputs give. -/
def load (s : Stages) (byLine : Bool) (inputs : List String) :
    m (Except LoadError Compilation) := do
  match ← resolve inputs with
  | .error e => return .error e
  | .ok paths => s.loadFiles byLine .empty paths

end

end Stages

/-- The compilation that the settings describe. -/
def InputSettings.load {m : Type → Type} [Monad m] [Volume m] (s : InputSettings) :
    m (Except LoadError Compilation) :=
  s.stages.load s.byLine s.inputs

end ValidatorGen

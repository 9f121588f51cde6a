import ValidatorGen.ConfigFile
import ValidatorGen.Fixture.Verdict
import ValidatorGen.Snapshot.Format

/-!
# Running fixtures

A directory of fixtures holds one directory for each case. In a case, `input.json` is the snapshot,
`config.json` the configuration if it is there, and `expected` holds the expected sources and
`diagnostics.json`, the expected diagnostics.

What cannot be read is a problem of the case where it has to be there, and counts as nothing where
it may be missing: no directory of expected sources means that none are expected, and no list of
diagnostics means an empty one. A pass that is broken off ends the whole run, since there is no
verdict on the case.
-/

namespace ValidatorGen.Fixture

open Files

/-- What a run of fixtures reports, and whether all passed. -/
structure Report where
  passed : Bool
  text : String
  deriving Repr, DecidableEq

/-- What a case came to: its problems, unless the pass was broken off. -/
abbrev CaseResult := Except Number.Abort (List String)

/-- The lines for one case. -/
def caseText (name : String) (problems : List String) : String :=
  if problems.isEmpty then "✅ " ++ name ++ "\n"
  else "❌ " ++ name ++ "\n" ++ String.join (problems.map fun p => "   " ++ p ++ "\n")

/-- The report on all cases: the lines of each, then how many passed and how many failed. -/
def Report.ofCases (cases : List (String × List String)) : Report :=
  let failed := (cases.filter fun c => !c.2.isEmpty).length
  { passed := failed = 0
    text := String.join (cases.map fun c => caseText c.1 c.2) ++
      (cases.length - failed).repr ++ " passed, " ++ failed.repr ++ " failed\n" }

/-- The report that the directory cannot be read. -/
def Report.unreadable (root : String) (error : FileError) : Report where
  passed := false
  text := "❌ cannot read fixtures at " ++ root ++ ": " ++ error.message ++ "\n"

section

variable {m : Type → Type} [Monad m] [Volume m] [Number.Arithmetic]

/-- The text of a file, or a problem that names the file. -/
def readNamed (path : String) : m (Except String String) := do
  return (← Volume.readText path).mapError fun e => path ++ ": " ++ e.message

/-- The sources in a directory; none if it cannot be read. -/
def readExpectedFiles (directory : String) : m (List ExpectedFile) := do
  match ← Volume.sortedNames directory with
  | .error _ => return []
  | .ok names =>
    (names.filter (·.endsWith ".g.cs")).mapM fun name => do
      let path := Path.join directory name
      return ⟨path, name, ← readNamed path⟩

/-- The expected diagnostics; none if the file cannot be read. -/
def readExpectedDiagnostics (path : String) : m (Except String (List ExpectedDiagnostic)) := do
  match ← Volume.readText path with
  | .error _ => return .ok []
  | .ok text =>
    return (ExpectedDiagnostic.listOfText text).mapError fun fault =>
      path ++ ": at " ++ Json.pathText fault.path ++ " → " ++ fault.detail

/-- The configuration of a case, the standard one if there is no file for it. -/
def readConfig (path : String) : m (Except ConfigFileError Config) := do
  match ← Volume.kind? path with
  | none => return .ok .standard
  | some _ => Config.fromFile path

/-- The problems of an output, compared with what an expected directory holds. -/
def compare (directory : String) (o : PassOutput) : m (List String) := do
  let files ← readExpectedFiles directory
  let diagnostics ← readExpectedDiagnostics (Path.join directory "diagnostics.json")
  return problems files diagnostics o

/-- What a case comes to. The first thing that cannot be read is its only problem, and the pass is
run only when everything could be. -/
def runCase (directory : String) : m CaseResult := do
  match ← readNamed (Path.join directory "input.json") with
  | .error problem => return .ok [problem]
  | .ok text =>
    match Compilation.ofText text with
    | .error fault => return .ok [fault.message]
    | .ok compilation =>
      match ← readConfig (Path.join directory "config.json") with
      | .error e => return .ok [e.message]
      | .ok config =>
        match generate config compilation with
        | .error abort => return .error abort
        | .ok o => return .ok (← compare (Path.join directory "expected") o)

/-- The cases among the names in a directory. -/
def isCase (root name : String) : m Bool :=
  Volume.isFile (Path.join (Path.join root name) "input.json")

/-- All cases in a directory, in the order of their names. -/
def run (root : String) : m (Except Number.Abort Report) := do
  match ← Volume.sortedNames root with
  | .error e => return .ok (.unreadable root e)
  | .ok names =>
    let cases ← names.filterM (isCase root)
    let results ← cases.mapM fun name => do
      return (← runCase (Path.join root name)).map fun problems => (name, problems)
    return (results.mapM id).map Report.ofCases

end

end ValidatorGen.Fixture

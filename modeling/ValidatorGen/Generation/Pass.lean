import ValidatorGen.Extraction
import ValidatorGen.Generation.Plan

/-!
# A generation pass

A pass goes over the candidates of a program. Each one gives at most one artifact and some
diagnostics; the results are put together in the order of the candidates. A pass that was
cancelled before it started gives nothing.

Candidates do not influence each other: what one gives is a function of the table and of the type.
They may be gone through at the same time, and the output is the same. There is one exception, the
operand that gives the run up. It does so for all candidates, whichever of them it belongs to, and
it is not reached if its candidate is refused before.

* `CandidateResult.ofCandidate` — what one candidate gives;
* `generate` — a whole pass;
* `generateUnless` — a pass with a flag that may have been set.
-/

namespace ValidatorGen

open Number (Abort Arithmetic)

/-- What one candidate gives. -/
structure CandidateResult where
  artifact : Option Artifact
  diagnostics : List Diagnostic
  deriving Repr, DecidableEq

/-- What a pass gives. -/
structure PassOutput where
  artifacts : List Artifact
  diagnostics : List Diagnostic
  cancelled : Bool
  deriving Repr, DecidableEq

namespace CandidateResult

/-- The warnings about dropped findings. -/
def droppedWarnings (arguments : MessageArguments) (e : Extraction) : List Diagnostic :=
  e.dropped.map fun d =>
    .report .unsupportedConstraintOperand (.ofSpan d.path d.span) (arguments.withDetail d.member)

/-- What a type gives for which there is nothing in the way. Without constraints a method would say
nothing, so it is not generated; that is warned about even if dropped findings are not. -/
def ofExtraction (config : Config) (t : SymbolTable) (s : Symbol) (mode : Mode) (e : Extraction) :
    CandidateResult :=
  let arguments := t.messageArguments s
  let warnings := if config.reportDropped then droppedWarnings arguments e else []
  if e.constraints.isEmpty then
    ⟨none, warnings ++ [.report .noEffect s.first.location arguments]⟩
  else
    let plan := Plan.ofSymbol t s config.symbols.capability mode (Placed.sort e.placed)
    ⟨some (.ofPlan config.indent.toNat plan), warnings⟩

/-- What a candidate gives. -/
def ofCandidate [Arithmetic] (config : Config) (t : SymbolTable) (s : Symbol) :
    Except Abort CandidateResult :=
  match t.eligible s with
  -- the annotations of a type that is refused are not looked at
  | .error diagnostic => .ok ⟨none, [diagnostic]⟩
  | .ok mode => (Extraction.ofSymbol config.symbols s).map (ofExtraction config t s mode)

end CandidateResult

namespace PassOutput

/-- The results of candidates put together. -/
def ofResults (results : List CandidateResult) : PassOutput where
  artifacts := results.filterMap CandidateResult.artifact
  diagnostics := results.flatMap CandidateResult.diagnostics
  cancelled := false

/-- The output of a cancelled pass. -/
def cancelledOutput : PassOutput :=
  ⟨[], [], true⟩

def hasErrors (o : PassOutput) : Bool :=
  Diagnostic.anyError o.diagnostics

/-- An output as a document. -/
def toJson (o : PassOutput) : Json :=
  .object
    [("artifacts", .array (o.artifacts.map Artifact.toJson)),
     ("diagnostics", .array (o.diagnostics.map Diagnostic.toJson)),
     ("cancelled", .bool o.cancelled)]

end PassOutput

/-- A pass over a program. -/
def generate [Arithmetic] (config : Config) (c : Compilation) : Except Abort PassOutput :=
  let table := SymbolTable.ofCompilation c
  ((table.candidates config.symbols).mapM (CandidateResult.ofCandidate config table)).map
    PassOutput.ofResults

/-- A pass that may have been cancelled before it starts. -/
def generateUnless [Arithmetic] (cancelled : Bool) (config : Config) (c : Compilation) :
    Except Abort PassOutput :=
  if cancelled then .ok .cancelledOutput else generate config c

end ValidatorGen

import ValidatorGen.Files.Path
import ValidatorGen.Fixture.Normal
import ValidatorGen.Generation.Pass
import ValidatorGen.Text.Quoted

/-!
# Verdicts on fixtures

The output of a pass is compared with the artifacts and diagnostics that are expected of it. All
artifacts are compared; of the diagnostics the messages are compared only if the codes agree.

A verdict is a list of problems, and an empty list is what passing means. The two sides of a
comparison of artifacts are not treated alike: an expected file asks for the first artifact of its
name, an artifact asks for any expected file whose path ends in its name.
-/

namespace ValidatorGen.Fixture

/-- A file that an artifact is expected to equal. The content may be unreadable, for a reason. -/
structure ExpectedFile where
  path : String
  name : String
  content : Except String String

/-- A diagnostic that is expected, with its message if that matters. -/
structure ExpectedDiagnostic where
  code : String
  message : Option String
  deriving Repr, DecidableEq

/-- The shape of a list of expected diagnostics. -/
def ExpectedDiagnostic.schema : Schema Unit := fun () =>
  ⟨"ExpectedDiagnostic", [⟨"code", .text, none⟩, ⟨"message", .optionalText, some .null⟩]⟩

namespace ExpectedDiagnostic

/-- An expected diagnostic from its completed document. -/
def ofDocument : Json → ExpectedDiagnostic
  | .object [(_, code), (_, message)] => ⟨code.asText, message.asOptionalText⟩
  | _ => ⟨"", none⟩

/-- The diagnostics listed in a text. What follows the list is not looked at. -/
def listOfText (text : String) : Except Json.Fault (List ExpectedDiagnostic) :=
  (Schema.read schema (.listOf (.record ())) text).map fun value => value.asList.map ofDocument

end ExpectedDiagnostic

/-! ## Artifacts -/

/-- What is wrong with one expected file. -/
def fileProblem? (artifacts : List Artifact) (expected : ExpectedFile) : Option String :=
  match artifacts.find? (·.hintName = expected.name) with
  | none => some ("missing artifact " ++ expected.name)
  | some artifact =>
    match expected.content with
    | .error problem => some problem
    | .ok content =>
      if normalize content = normalize artifact.source then none
      else some ("artifact " ++ expected.name ++ " differs\n--- expected\n" ++ normalize content ++
        "\n--- actual\n" ++ normalize artifact.source)

/-- An artifact for which there is no expected file. -/
def surplus? (expected : List ExpectedFile) (artifact : Artifact) : Option String :=
  if expected.any fun f => Files.Path.endsWith f.path artifact.hintName then none
  else some ("unexpected artifact " ++ artifact.hintName)

/-- Problems with artifacts: first what is missing or differs, then what is too much. -/
def artifactProblems (expected : List ExpectedFile) (o : PassOutput) : List String :=
  expected.filterMap (fileProblem? o.artifacts) ++ o.artifacts.filterMap (surplus? expected)

/-! ## Diagnostics -/

/-- A list of quoted texts. -/
def quotedList (texts : List String) : String :=
  "[" ++ ", ".intercalate (texts.map Text.quoted) ++ "]"

/-- A message that is not the expected one. -/
def messageProblem? (expected : ExpectedDiagnostic) (d : Diagnostic) : Option String :=
  match expected.message with
  | none => none
  | some message =>
    if message = d.message then none
    else some (d.code ++ ": expected message " ++ Text.quoted message ++ ", got " ++
      Text.quoted d.message)

/-- Problems with diagnostics; the codes have to be the expected ones in the same order. -/
def diagnosticProblems (expected : List ExpectedDiagnostic) (o : PassOutput) : List String :=
  let wanted := expected.map ExpectedDiagnostic.code
  let actual := o.diagnostics.map Diagnostic.code
  if actual ≠ wanted then
    ["diagnostics differ: expected " ++ quotedList wanted ++ ", got " ++ quotedList actual]
  -- The codes agree one by one here, so nothing is lost by pairing the lists.
  else (expected.zip o.diagnostics).filterMap fun (e, d) => messageProblem? e d

/-- All problems of a fixture. A list of diagnostics that cannot be read is a problem. -/
def problems (files : List ExpectedFile) (diagnostics : Except String (List ExpectedDiagnostic))
    (o : PassOutput) : List String :=
  artifactProblems files o ++
    match diagnostics with
    | .error problem => [problem]
    | .ok expected => diagnosticProblems expected o

end ValidatorGen.Fixture

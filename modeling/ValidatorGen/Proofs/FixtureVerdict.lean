import ValidatorGen.Fixture.Runner
import ValidatorGen.Proofs.ExpectedEntries
import ValidatorGen.Proofs.HintNames

/-!
# What a fixture passes on

A case passes if the output of the pass agrees with the expected directory in every respect. The
expected files are compared with the artifacts of their names, and the artifacts with the ends of
the paths of expected files. When all artifacts have different names, the two comparisons together
pair off artifacts and files. Diagnostics are compared by their codes first, so that pairing them
off afterwards leaves none out.

Reading files is done in a state monad over a tree, and nothing that a comparison does changes the
tree. Each reader is therefore first turned into a function of the tree (`run_readExpectedFiles`,
`run_readExpectedDiagnostics`), and what is said about verdicts afterwards is about lists.

That artifacts have different names is a hypothesis here. Where it fails, two artifacts share one
file, and a comparison by names cannot see the second of them; when it holds is the subject of the
module on the names of files.

Main results:

* `Path.endsWith_join_iff` — whether a path in a directory ends in a name;
* `run_readExpectedFiles`, `run_readExpectedDiagnostics` — what is read of an expected directory;
* `artifactProblems_eq_nil_iff`, `diagnosticProblems_eq_nil_iff` — when there is no problem with the
  artifacts or the diagnostics;
* `run_runCase` — a case whose snapshot and configuration are accepted comes to a comparison;
* `compare_eq_nil_iff` — when a comparison finds no problem.
-/

namespace ValidatorGen

open Number (Arithmetic)

/-! ## Names at the end of paths -/

namespace Files.Path

theorem part?_of_isFileName {name : String} (hName : IsFileName name) :
    part? name.toList = some (.name name) := by
  unfold part?
  split
  next h => exact absurd (String.toList_injective h) hName.ne_empty
  next h => exact absurd (String.toList_injective h) hName.ne_current
  next h => exact absurd (String.toList_injective h) hName.ne_parent
  next => rw [String.ofList_toList]

/-- The last part of a path that leads into a directory is the name. -/
theorem exists_parts_join {name : String} (hName : IsFileName name) (directory : String) :
    ∃ before, parts (join directory name) = before ++ [.name name] := by
  obtain ⟨texts, hTexts⟩ := exists_split_join hName directory
  have hLast : [name.toList].filterMap part? = [.name name] :=
    List.filterMap_cons_some (part?_of_isFileName hName)
  rw [parts, hTexts, List.filterMap_append, hLast, ← List.append_assoc]
  exact ⟨_, rfl⟩

theorem parts_of_isFileName {name : String} (hName : IsFileName name) :
    parts name = [.name name] := by
  have hHead : [name.toList].head? ≠ some ['.'] := fun h =>
    hName.ne_current (String.toList_injective (Option.some.inj h))
  have hLast : [name.toList].filterMap part? = [.name name] :=
    List.filterMap_cons_some (part?_of_isFileName hName)
  rw [parts, split_of_isFileName hName, isAbsolute_of_isFileName hName, hLast,
    if_neg Bool.false_ne_true, if_neg hHead]
  rfl

/-- A path in a directory ends in a name if and only if it leads to the file of that name. -/
theorem endsWith_join_iff {name suffix : String} (hName : IsFileName name)
    (hSuffix : IsFileName suffix) (directory : String) :
    endsWith (join directory name) suffix = true ↔ name = suffix := by
  obtain ⟨before, hParts⟩ := exists_parts_join hName directory
  rw [endsWith, hParts, parts_of_isFileName hSuffix, List.isSuffixOf_iff_suffix]
  constructor
  · rintro ⟨others, hOthers⟩
    have hLast : [PathPart.name suffix] = [.name name] := List.append_inj_right' hOthers rfl
    exact (PathPart.name.inj (List.singleton_inj.1 hLast)).symm
  · rintro rfl
    exact List.suffix_append before _

end Files.Path

namespace Fixture

open Files

variable {t : Tree} {directory path : String}

/-! ## Reading an expected directory -/

theorem run_readNamed (t : Tree) (path : String) :
    (readNamed path : StateM Tree _).run t =
      ((t.readText path).mapError fun e => path ++ ": " ++ e.message, t) := by
  rw [readNamed, run_bind_of_run (run_readText t path)]
  rfl

/-- A step that leaves the tree as it is does so for a whole list. -/
theorem run_mapM_of_reads {α β : Type} {f : α → StateM Tree β} {g : α → β} {as : List α}
    (h : ∀ a ∈ as, (f a).run t = (g a, t)) : (as.mapM f).run t = (as.map g, t) := by
  induction as with
  | nil => rfl
  | cons a as ih =>
    obtain ⟨hFirst, hRest⟩ := List.forall_mem_cons.1 h
    rw [List.mapM_cons, run_bind_of_run hFirst, run_bind_of_run (ih hRest)]
    rfl

/-- A directory whose names are known, and all of whose sources can be read. The content of each
file is part of the structure, since a file that cannot be read is a problem of its own. -/
structure Readable (t : Tree) (directory : String) where
  names : List String
  content : String → String
  names_eq : t.names directory = .ok names
  no_slash : ∀ name ∈ names, '/' ∉ name.toList
  readText_eq : ∀ name ∈ names, name.endsWith ".g.cs" = true →
    t.readText (Path.join directory name) = .ok (content name)

namespace Readable

/-- The names of the sources in the directory. -/
def sources (r : Readable t directory) : List String :=
  r.names.filter (·.endsWith ".g.cs")

/-- A source of the directory, as it is read. -/
def file (r : Readable t directory) (name : String) : ExpectedFile :=
  ⟨Path.join directory name, name, .ok (r.content name)⟩

theorem isFileName_of_mem_sources {r : Readable t directory} {name : String}
    (h : name ∈ r.sources) : IsFileName name := by
  obtain ⟨hName, hEnd⟩ := List.mem_filter.1 h
  have hOther : ∀ other : String, other.endsWith ".g.cs" = false → name ≠ other := by
    rintro other hOther rfl
    exact Bool.false_ne_true (hOther.symm.trans hEnd)
  exact
    { ne_empty := hOther "" (by decide +kernel)
      no_slash := r.no_slash name hName
      ne_current := hOther "." (by decide +kernel)
      ne_parent := hOther ".." (by decide +kernel) }

end Readable

/-- The sources are read in the order of their names. -/
theorem run_readExpectedFiles (r : Readable t directory) :
    (readExpectedFiles directory : StateM Tree _).run t =
      (((r.names.mergeSort (· ≤ ·)).filter (·.endsWith ".g.cs")).map r.file, t) := by
  have hNames : (Volume.names directory : StateM Tree _).run t = (.ok r.names, t) :=
    congrArg (·, t) r.names_eq
  have hSorted : (Volume.sortedNames directory : StateM Tree _).run t =
      (.ok (r.names.mergeSort (· ≤ ·)), t) := by
    rw [Volume.sortedNames, run_bind_of_run hNames]
    rfl
  rw [readExpectedFiles, run_bind_of_run hSorted]
  refine run_mapM_of_reads fun name hName => ?_
  obtain ⟨hSortedName, hEnd⟩ := List.mem_filter.1 hName
  have hRead := r.readText_eq name (List.mem_mergeSort.1 hSortedName) hEnd
  rw [run_bind_of_run (run_readNamed t _), hRead]
  rfl

theorem run_readExpectedDiagnostics (t : Tree) (path : String) :
    (readExpectedDiagnostics path : StateM Tree _).run t =
      (match t.readText path with
        | .error _ => .ok []
        | .ok text => (ExpectedDiagnostic.listOfText text).mapError fun fault =>
          path ++ ": at " ++ Json.pathText fault.path ++ " → " ++ fault.detail, t) := by
  rw [readExpectedDiagnostics, run_bind_of_run (run_readText t path)]
  cases t.readText path <;> rfl

/-! ## Artifacts -/

variable {o : PassOutput} {artifacts : List Artifact}

/-- The artifact that is compared with an expected file is the one of that name. -/
theorem find?_hintName_eq_some_iff (hNodup : (artifacts.map Artifact.hintName).Nodup)
    {name : String} {a : Artifact} :
    artifacts.find? (·.hintName = name) = some a ↔ a ∈ artifacts ∧ a.hintName = name := by
  constructor
  · intro h
    exact ⟨List.mem_of_find?_eq_some h, by simpa using List.find?_some h⟩
  · rintro ⟨hMem, hName⟩
    obtain ⟨b, hFound⟩ : ∃ b, artifacts.find? (·.hintName = name) = some b :=
      Option.isSome_iff_exists.1 (List.find?_isSome.2 ⟨a, hMem, by simpa using hName⟩)
    have hNameOf : b.hintName = name := by simpa using List.find?_some hFound
    have hSame : b = a := List.inj_on_of_nodup_map hNodup (List.mem_of_find?_eq_some hFound) hMem
      (hNameOf.trans hName.symm)
    rw [hFound, hSame]

theorem fileProblem?_eq_none_iff (hNodup : (artifacts.map Artifact.hintName).Nodup)
    {path name content : String} :
    fileProblem? artifacts ⟨path, name, .ok content⟩ = none ↔
      ∃ a ∈ artifacts, a.hintName = name ∧ normalize content = normalize a.source := by
  simp only [← and_assoc, ← find?_hintName_eq_some_iff hNodup, fileProblem?]
  cases artifacts.find? (·.hintName = name) with
  | none => simp
  | some a => simp

theorem surplus?_eq_none_iff {files : List ExpectedFile} {a : Artifact} :
    surplus? files a = none ↔ ∃ f ∈ files, Path.endsWith f.path a.hintName = true := by
  rw [surplus?, ← List.any_eq_true]
  split <;> simp_all

/-- Whether to each artifact belongs the source of its name in a directory, and no other source is
there, and the texts are the same apart from blanks at the ends of lines and of the text. The names
set up a pairing of artifacts and sources, and paired texts are equal in normal form. -/
def Readable.HasArtifacts (r : Readable t directory) (o : PassOutput) : Prop :=
  Set.BijOn Artifact.hintName {a | a ∈ o.artifacts} {name | name ∈ r.sources} ∧
    ∀ a ∈ o.artifacts, normalize (r.content a.hintName) = normalize a.source

/-- The two comparisons of artifacts and expected files come to a pairing, whatever the order of the
files. -/
theorem artifactProblems_eq_nil_iff (hNodup : (o.artifacts.map Artifact.hintName).Nodup)
    (hNames : ∀ a ∈ o.artifacts, IsFileName a.hintName) (r : Readable t directory)
    {files : List ExpectedFile} (hFiles : ∀ f, f ∈ files ↔ f ∈ r.sources.map r.file) :
    artifactProblems files o = [] ↔ r.HasArtifacts o := by
  -- the first comparison asks for an artifact for each file, the second for a file for each
  -- artifact
  have hExpected : (∀ f ∈ files, fileProblem? o.artifacts f = none) ↔
      ∀ name ∈ r.sources, ∃ a ∈ o.artifacts, a.hintName = name ∧
        normalize (r.content name) = normalize a.source := by
    simp only [hFiles, List.forall_mem_map, Readable.file, fileProblem?_eq_none_iff hNodup]
  have hSurplus : (∀ a ∈ o.artifacts, surplus? files a = none) ↔
      ∀ a ∈ o.artifacts, a.hintName ∈ r.sources := by
    refine forall₂_congr fun a ha => surplus?_eq_none_iff.trans ⟨?_, fun hName => ?_⟩
    · rintro ⟨f, hf, hEnds⟩
      obtain ⟨name, hName, rfl⟩ := List.mem_map.1 ((hFiles f).1 hf)
      have hSame : name = a.hintName := (Path.endsWith_join_iff
        (Readable.isFileName_of_mem_sources hName) (hNames a ha) directory).1 hEnds
      rwa [← hSame]
    · -- the file of its name is one in whose path it ends
      have hEnds : Path.endsWith (r.file a.hintName).path a.hintName = true :=
        (Path.endsWith_join_iff (hNames a ha) (hNames a ha) directory).2 rfl
      exact ⟨r.file a.hintName, (hFiles _).2 (List.mem_map_of_mem hName), hEnds⟩
  rw [artifactProblems, List.append_eq_nil_iff, List.filterMap_eq_nil_iff,
    List.filterMap_eq_nil_iff, hExpected, hSurplus]
  constructor
  · rintro ⟨hPaired, hMem⟩
    -- the artifact that has the name of another one is that one
    refine ⟨⟨hMem, fun a ha b hb => List.inj_on_of_nodup_map hNodup ha hb, fun name hName => ?_⟩,
      fun a ha => ?_⟩
    · obtain ⟨a, ha, hSame, -⟩ := hPaired name hName
      exact ⟨a, ha, hSame⟩
    · obtain ⟨b, hb, hSame, hText⟩ := hPaired a.hintName (hMem a ha)
      rwa [List.inj_on_of_nodup_map hNodup hb ha hSame] at hText
  · rintro ⟨⟨hMem, -, hOnto⟩, hTexts⟩
    refine ⟨fun name hName => ?_, hMem⟩
    obtain ⟨a, ha, rfl⟩ := hOnto hName
    exact ⟨a, ha, rfl, hTexts a ha⟩

/-! ## Diagnostics -/

/-- Whether a diagnostic is the expected one; its message only matters if one is given. -/
def ExpectedDiagnostic.Admits (e : ExpectedDiagnostic) (d : Diagnostic) : Prop :=
  e.code = d.code ∧ ∀ message, e.message = some message → message = d.message

theorem messageProblem?_eq_none_iff {e : ExpectedDiagnostic} {d : Diagnostic} :
    messageProblem? e d = none ↔ ∀ message, e.message = some message → message = d.message := by
  unfold messageProblem?
  cases e.message with
  | none => simp
  | some message => simp

/-- When the codes agree, no diagnostic is left out by the comparison of messages. -/
theorem diagnosticProblems_eq_nil_iff {entries : List ExpectedDiagnostic} :
    diagnosticProblems entries o = [] ↔
      List.Forall₂ ExpectedDiagnostic.Admits entries o.diagnostics := by
  -- equal lists of codes have equal lengths, so the pairs are all there is
  have hCodes : o.diagnostics.map Diagnostic.code = entries.map ExpectedDiagnostic.code ↔
      List.Forall₂ (fun e d => e.code = d.code) entries o.diagnostics := by
    rw [eq_comm, ← List.forall₂_eq_eq_eq, List.forall₂_map_left_iff, List.forall₂_map_right_iff]
  have hAdmits : List.Forall₂ ExpectedDiagnostic.Admits entries o.diagnostics ↔
      List.Forall₂ (fun e d => e.code = d.code) entries o.diagnostics ∧
        ∀ {e d}, (e, d) ∈ entries.zip o.diagnostics →
          ∀ message, e.message = some message → message = d.message := by
    simp only [List.forall₂_iff_zip, ExpectedDiagnostic.Admits]
    constructor
    · rintro ⟨hLength, hBoth⟩
      exact ⟨⟨hLength, fun h => (hBoth h).1⟩, fun h => (hBoth h).2⟩
    · rintro ⟨⟨hLength, hCode⟩, hMessage⟩
      exact ⟨hLength, fun h => ⟨hCode h, hMessage h⟩⟩
  rw [hAdmits, ← hCodes, diagnosticProblems]
  split
  next hNe => exact ⟨(nomatch ·), fun h => absurd h.1 hNe⟩
  next hEq =>
    rw [List.filterMap_eq_nil_iff]
    constructor
    · intro h
      exact ⟨not_not.1 hEq, fun hPair => messageProblem?_eq_none_iff.1 (h _ hPair)⟩
    · rintro ⟨-, h⟩ ⟨e, d⟩ hPair
      exact messageProblem?_eq_none_iff.2 (h hPair)

/-- The entries that an expected directory has for diagnostics: none if there is no text, and
otherwise those of the list with which the text begins. A text that does not begin with a list of
entries has no entries, not even an empty list of them. -/
inductive ListsEntries : Option String → List ExpectedDiagnostic → Prop
  | absent : ListsEntries none []
  | written {document rest : String} {values : List Json} {entries : List ExpectedDiagnostic}
    (hDocument : Json.IsSingleDocument document)
    (hParse : Json.parse document = .ok (.array values))
    (hEntries : List.Forall₂ ExpectedDiagnostic.IsEntry values entries) :
    ListsEntries (some (document ++ rest)) entries

/-- Whether the diagnostics of an output are, one by one, those expected in a directory. -/
def HasDiagnostics (t : Tree) (directory : String) (o : PassOutput) : Prop :=
  ∃ entries, ListsEntries (t.readText (Path.join directory "diagnostics.json")).toOption entries ∧
    List.Forall₂ ExpectedDiagnostic.Admits entries o.diagnostics

theorem readExpectedDiagnostics_eq_ok_iff {entries : List ExpectedDiagnostic} :
    ((readExpectedDiagnostics path : StateM Tree _).run t).1 = .ok entries ↔
      ListsEntries (t.readText path).toOption entries := by
  rw [run_readExpectedDiagnostics]
  cases t.readText path with
  -- A file that cannot be read counts as an empty list.
  | error e =>
    constructor
    · rintro ⟨⟩
      exact .absent
    · rintro ⟨⟩
      rfl
  | ok text =>
    show (ExpectedDiagnostic.listOfText text).mapError _ = .ok entries ↔
      ListsEntries (some text) entries
    rw [mapError_eq_ok_iff, ExpectedDiagnostic.listOfText_eq_ok_iff]
    constructor
    · rintro ⟨document, rest, values, rfl, hDocument, hParse, hEntries⟩
      exact .written hDocument hParse hEntries
    · rintro ⟨⟩
      exact ⟨_, _, _, rfl, ‹_›, ‹_›, ‹_›⟩

/-! ## The verdict -/

/-- An output is compared with what is read of the directory, and the tree stays as it is. -/
theorem run_compare (r : Readable t directory) (o : PassOutput) :
    (compare directory o : StateM Tree _).run t =
      (problems (((r.names.mergeSort (· ≤ ·)).filter (·.endsWith ".g.cs")).map r.file)
        ((readExpectedDiagnostics (Path.join directory "diagnostics.json") :
          StateM Tree _).run t).1 o, t) := by
  rw [compare, run_bind_of_run (run_readExpectedFiles r),
    run_bind_of_run (run_readExpectedDiagnostics t _), run_readExpectedDiagnostics]
  rfl

/-- There is no problem if there is none with the artifacts, and the expected diagnostics can be
read and are those of the output. -/
theorem problems_eq_nil_iff {files : List ExpectedFile}
    {diagnostics : Except String (List ExpectedDiagnostic)} :
    problems files diagnostics o = [] ↔
      artifactProblems files o = [] ∧
        ∃ entries, diagnostics = .ok entries ∧
          List.Forall₂ ExpectedDiagnostic.Admits entries o.diagnostics := by
  unfold problems
  rw [List.append_eq_nil_iff]
  refine and_congr_right fun _ => ?_
  cases diagnostics with
  | error problem => simp
  | ok entries => simp [diagnosticProblems_eq_nil_iff]

/-- A case whose snapshot and configuration are accepted is compared with its expected directory. -/
theorem run_runCase [Arithmetic] {text : String} {c : Compilation} {config : Config}
    (hInput : t.readText (Path.join directory "input.json") = .ok text)
    (hSnapshot : Compilation.ofText text = .ok c)
    (hConfig : (readConfig (Path.join directory "config.json") : StateM Tree _).run t =
      (.ok config, t)) (hPass : generate config c = .ok o) :
    (runCase directory : StateM Tree _).run t =
      (.ok ((compare (Path.join directory "expected") o : StateM Tree _).run t).1,
        ((compare (Path.join directory "expected") o : StateM Tree _).run t).2) := by
  have hRead : (readNamed (Path.join directory "input.json") : StateM Tree _).run t =
      (.ok text, t) := by
    rw [run_readNamed, hInput]
    rfl
  -- Each step of the run reads without changing the tree, and is replaced by what it reads.
  rw [runCase, run_bind_of_run hRead]
  dsimp only
  rw [hSnapshot]
  dsimp only
  rw [run_bind_of_run hConfig]
  dsimp only
  rw [hPass]
  rfl

/-- Every artifact is named after a plan. -/
theorem exists_plan_of_mem_artifacts [Arithmetic] {config : Config} {c : Compilation}
    (hPass : generate config c = .ok o) {a : Artifact} (ha : a ∈ o.artifacts) :
    ∃ p : Plan, a.hintName = p.hintName := by
  obtain ⟨-, rfl⟩ := generate_eq_ok_iff.1 hPass
  rw [PassOutput.artifacts_outcome] at ha
  obtain ⟨s, -, hArtifact⟩ := List.mem_filterMap.1 ha
  exact ⟨_, (SymbolTable.emits_of_artifact hArtifact).2⟩

/-- **The verdict on a fixture is exact.** Let the artifacts of a pass have different names without
slashes, and let the expected directory be readable. The comparison finds no problem if and only if
the artifacts are paired with the expected sources by their names, with the same texts in normal
form, and the diagnostics are one by one the expected ones. A case whose snapshot and configuration
are those of the pass comes to this comparison. -/
theorem compare_eq_nil_iff [Arithmetic] {config : Config} {c : Compilation} {directory : String}
    (hPass : generate config c = .ok o) (hNodup : (o.artifacts.map Artifact.hintName).Nodup)
    (hSlash : ∀ a ∈ o.artifacts, '/' ∉ a.hintName.toList)
    (r : Readable t (Path.join directory "expected")) :
    ((compare (Path.join directory "expected") o : StateM Tree _).run t = ([], t) ↔
        r.HasArtifacts o ∧ HasDiagnostics t (Path.join directory "expected") o) ∧
      ∀ text, t.readText (Path.join directory "input.json") = .ok text →
        Compilation.ofText text = .ok c →
        (readConfig (Path.join directory "config.json") : StateM Tree _).run t = (.ok config, t) →
          ((runCase directory : StateM Tree _).run t = (.ok [], t) ↔
            (compare (Path.join directory "expected") o : StateM Tree _).run t = ([], t)) := by
  have hNames : ∀ a ∈ o.artifacts, IsFileName a.hintName := fun a ha => by
    obtain ⟨p, hName⟩ := exists_plan_of_mem_artifacts hPass ha
    have hFree := hSlash a ha
    rw [hName] at hFree ⊢
    exact p.isFileName_of_notMem hFree
  -- The code sorts the names of the files before it reads them; which of them there are does not
  -- depend on it.
  have hFiles : ∀ f, f ∈ ((r.names.mergeSort (· ≤ ·)).filter (·.endsWith ".g.cs")).map r.file ↔
      f ∈ r.sources.map r.file := fun f => by
    simp only [List.mem_map, List.mem_filter, List.mem_mergeSort, Readable.sources]
  constructor
  · rw [run_compare r, Prod.mk.injEq, and_iff_left rfl, problems_eq_nil_iff,
      artifactProblems_eq_nil_iff hNodup hNames r hFiles]
    simp only [readExpectedDiagnostics_eq_ok_iff, HasDiagnostics]
  · intro text hInput hSnapshot hConfig
    rw [run_runCase hInput hSnapshot hConfig hPass, Prod.mk.injEq, Except.ok.injEq, ← Prod.mk.injEq]
    exact Iff.rfl

/-- A snapshot of two records with the same marker, of which only the first can be given a
validator. -/
def boxAndLid : String :=
  let marker := "\"attributes\":[\x7b\"name\":" ++
    "\"FastValidate.Attributes.GenerateValidateMethodAttribute\"\x7d]"
  "\x7b\"files\":[\x7b\"path\":\"Box.cs\",\"types\":[" ++
    "\x7b\"kind\":\"record\",\"name\":\"Box\",\"modifiers\":[\"public\",\"partial\"]," ++
    "\"members\":[\x7b\"kind\":\"field\",\"name\":\"Width\",\"type\":\"int\",\"attributes\":[" ++
    "\x7b\"name\":\"FastValidate.Attributes.LessThanAttribute\",\"arguments\":[" ++
    "\x7b\"kind\":\"int\",\"value\":7\x7d]\x7d]\x7d]," ++ marker ++ "\x7d," ++
    "\x7b\"kind\":\"record\",\"name\":\"Lid\"," ++ marker ++ "\x7d]\x7d]\x7d"

/-- The validator of the first record. -/
def boxSource : String :=
  "// <auto-generated/>\n// Generated by fast-validate\n" ++
    "public partial record Box : global::FastValidate.IFastValidatable\n\x7b\n" ++
    "    public bool Validate()\n    \x7b\n        return (Width < 7);\n    \x7d\n\x7d\n"

/-- A case that expects this validator and the code of one diagnostic. -/
def boxCase : Tree where
  entries :=
    [(["box"], .directory), (["box", "input.json"], .file boxAndLid.toUTF8),
      (["box", "expected"], .directory),
      (["box", "expected", "Box.Validate.g.cs"], .file boxSource.toUTF8),
      (["box", "expected", "diagnostics.json"],
        .file "[\x7b\"code\":\"ERR-FV-001\"\x7d] for the lid".toUTF8)]

/-- The expected directory of the case. -/
def readableBoxCase : Readable boxCase (Path.join "box" "expected") where
  names := ["Box.Validate.g.cs", "diagnostics.json"]
  content _ := boxSource
  names_eq := by decide +kernel
  no_slash := by decide +kernel
  readText_eq := List.forall_mem_cons.2 ⟨fun _ => Tree.readText_of_readBytes rfl,
    List.forall_mem_singleton.2 fun hEnd => absurd hEnd (by decide +kernel)⟩

/-- The case passes. -/
theorem runCase_boxCase :
    ∃ c o, Compilation.ofText boxAndLid = .ok c ∧ generate .standard c = .ok o ∧
      readableBoxCase.HasArtifacts o ∧ HasDiagnostics boxCase (Path.join "box" "expected") o ∧
        (runCase "box" : StateM Tree _).run boxCase = (.ok [], boxCase) := by
  have hOutcome : ((Compilation.ofText boxAndLid).map fun c => (generate .standard c).map fun o =>
      (o.artifacts.map fun a => (a.hintName, a.source), o.diagnostics.map Diagnostic.code)) =
        .ok (.ok ([("Box.Validate.g.cs", boxSource)], ["ERR-FV-001"])) := by
    -- the parts of the text are much faster to take apart than the text
    unfold Compilation.ofText Schema.read Json.Written.read Json.Cursor.start boxAndLid
    simp only [String.toList_append]
    decide +kernel
  obtain ⟨c, hSnapshot, hGenerated⟩ := except_map_eq_ok_iff.1 hOutcome
  obtain ⟨o, hPass, hOutput⟩ := except_map_eq_ok_iff.1 hGenerated.symm
  obtain ⟨hArtifacts, hCodes⟩ := Prod.mk.inj hOutput.symm
  obtain ⟨a, hOne, hArtifact⟩ := List.map_eq_singleton_iff.1 hArtifacts
  obtain ⟨hName, hText⟩ := Prod.mk.inj hArtifact
  obtain ⟨d, hOnly, hCode⟩ := List.map_eq_singleton_iff.1 hCodes
  have hSources : readableBoxCase.sources = ["Box.Validate.g.cs"] := by decide +kernel
  -- the one artifact is paired with the one source
  have hHas : readableBoxCase.HasArtifacts o := by
    rw [Readable.HasArtifacts, hSources, hOne]
    simp [hName, hText, readableBoxCase]
  have hExpected : ((readExpectedDiagnostics (Path.join (Path.join "box" "expected")
      "diagnostics.json") : StateM Tree _).run boxCase).1 = .ok [⟨"ERR-FV-001", none⟩] := by
    decide +kernel
  have hDiagnostics : HasDiagnostics boxCase (Path.join "box" "expected") o :=
    ⟨_, readExpectedDiagnostics_eq_ok_iff.1 hExpected,
      hOnly ▸ .cons ⟨hCode.symm, fun _ h => nomatch h⟩ .nil⟩
  have hNodup : (o.artifacts.map Artifact.hintName).Nodup := by simp [hOne]
  have hSlash : ∀ a ∈ o.artifacts, '/' ∉ a.hintName.toList := by
    rw [hOne, List.forall_mem_singleton, hName]
    decide +kernel
  have hInput : boxCase.readText (Path.join "box" "input.json") = .ok boxAndLid :=
    Tree.readText_of_readBytes rfl
  have hConfig : (readConfig (Path.join "box" "config.json") : StateM Tree _).run boxCase =
      (.ok .standard, boxCase) := by
    have hKind : boxCase.kind? (Path.join "box" "config.json") = none := by decide +kernel
    have hAbsent : (Volume.kind? (Path.join "box" "config.json") : StateM Tree _).run boxCase =
        (none, boxCase) := congrArg (·, boxCase) hKind
    rw [readConfig, run_bind_of_run hAbsent]
    rfl
  have hVerdict := compare_eq_nil_iff hPass hNodup hSlash readableBoxCase
  exact ⟨c, o, hSnapshot, hPass, hHas, hDiagnostics,
    (hVerdict.2 boxAndLid hInput hSnapshot hConfig).2 (hVerdict.1.2 ⟨hHas, hDiagnostics⟩)⟩

end Fixture

end ValidatorGen

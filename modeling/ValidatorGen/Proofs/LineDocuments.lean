import ValidatorGen.Files.Tree
import ValidatorGen.Loading
import ValidatorGen.Proofs.Traversal
import ValidatorGen.Proofs.WrittenFiles

/-!
# Documents on lines and in files

A file with a document on every line is loaded like a list of files that hold one document each, no
matter which blank lines stand between them. The two ways differ in what is done first: of one file
all documents are read before a value is selected from the first of them, while files are taken
through all stages one by one. So they may fail for different reasons, but one fails if and only if
the other one does. All of this holds for every pointer and every filter, which may be any functions
on documents.

The comparison is between two runs: one over a single file with a document on each line, one over a
file for each document. Success of either is described by the same relation, text by text
(`Stages.Gives`), and failure is only the absence of success, so nothing has to be said about which
error comes first.

Main results:

* `Text.filter_lines` — the lines of a text that are not blank;
* `Stages.snapshotsOfText_lines_iff` — the snapshots in a text with documents on its lines;
* `Stages.run_loadFiles` — files are taken one by one, and the tree stays as it is;
* `Stages.load_lines_iff` — one file with documents on its lines is loaded like a file for each
  document, and the compilation has the files of all snapshots in order.
-/

namespace ValidatorGen

/-! ## Lines -/

namespace Text

/-- A text on whose lines the given texts stand in their order, each on its own line. What stands on
the other lines is blank. A line ends in a line feed, which may have a carriage return before it, or
at the end of the text. The constructors go along the lines, so an induction on the relation is one
on the lines of the text. -/
inductive HasOnLines : List String → List Char → Prop
  | blank {texts : List String} {line rest : List Char} (hBlank : ∀ c ∈ line, isBlank c = true)
      (hLine : '\n' ∉ line) (h : HasOnLines texts rest) : HasOnLines texts (line ++ '\n' :: rest)
  | text {texts : List String} {ends rest : List Char} (text : String)
      (hEnds : ends = ['\n'] ∨ ends = ['\r', '\n']) (h : HasOnLines texts rest) :
      HasOnLines (text :: texts) (text.toList ++ ends ++ rest)
  | lastBlank {line : List Char} (hBlank : ∀ c ∈ line, isBlank c = true) (hLine : '\n' ∉ line) :
      HasOnLines [] line
  | lastText (text : String) : HasOnLines [text] text.toList

variable {line rest : List Char} {texts : List String}

theorem splitOn_of_not_mem (hLine : '\n' ∉ line) : splitOn '\n' line = [line] := by
  rw [splitOn_eq]
  exact List.splitOnP_eq_singleton fun c hc => by
    simpa using fun h : c = '\n' => hLine (h ▸ hc)

theorem lines_append (hLine : '\n' ∉ line) :
    lines (line ++ '\n' :: rest) = dropReturn line :: lines rest := by
  have hParts : splitOn '\n' (line ++ '\n' :: rest) = splitOn '\n' line ++ splitOn '\n' rest := by
    rw [splitOn_eq, splitOn_eq, splitOn_eq]
    exact List.splitOnP_append_cons line rest (beq_self_eq_true '\n')
  obtain ⟨first, more, hRest⟩ : ∃ first more, splitOn '\n' rest = first :: more :=
    List.exists_cons_of_ne_nil (by rw [splitOn_eq]; exact List.splitOn_ne_nil '\n' rest)
  rw [splitOn_of_not_mem hLine, List.singleton_append, hRest] at hParts
  rw [lines, lines, hParts, hRest, List.dropLast_cons_cons, List.getLast?_cons_cons, List.map_cons]
  split <;> rfl

theorem lines_of_not_mem (hLine : '\n' ∉ line) : lines line = if line = [] then [] else [line] := by
  rw [lines, splitOn_of_not_mem hLine]
  cases line <;> rfl

/-- The lines of a text that are not blank. -/
theorem filter_lines {content : List Char}
    (hTexts : ∀ text ∈ texts, '\n' ∉ text.toList ∧ '\r' ∉ text.toList ∧
      ∃ c ∈ text.toList, isBlank c = false)
    (h : HasOnLines texts content) :
    (lines content).filter (fun line => !(line.all isBlank)) = texts.map String.toList := by
  have hSkipped : ∀ line : List Char, (∀ c ∈ line, isBlank c = true) →
      ¬ (!(line.all isBlank)) = true := fun line h => by simpa using h
  have hTaken : ∀ text ∈ texts, (!(text.toList.all isBlank)) = true := fun text hText => by
    simpa using (hTexts text hText).2.2
  -- along the lines of the text, as they are given
  induction h with
  | @blank texts line rest hBlank hLine _ ih =>
    have hReturn : ∀ c ∈ dropReturn line, isBlank c = true := fun c hc =>
      hBlank c ((dropReturn_isPrefix line).mem hc)
    rw [lines_append hLine, ← ih hTexts hTaken]
    exact List.filter_cons_of_neg (hSkipped _ hReturn)
  | @text texts ends rest text hEnds _ ih =>
    obtain ⟨hFirst, hRest⟩ := List.forall_mem_cons.1 hTexts
    obtain ⟨hTaken, hTakenRest⟩ := List.forall_mem_cons.1 hTaken
    -- the text does not end in a return, so that only the one of the line end is dropped
    have hLast : text.toList.getLast? ≠ some '\r' := fun h =>
      hFirst.2.1 (List.mem_of_getLast? h)
    have hLines : lines (text.toList ++ ends ++ rest) = text.toList :: lines rest := by
      rcases hEnds with rfl | rfl
      · rw [List.append_assoc, List.singleton_append, lines_append hFirst.1,
          dropReturn_of_getLast? hLast]
      · have hMem : '\n' ∉ text.toList ++ ['\r'] := by simpa using hFirst.1
        have hParts : text.toList ++ ['\r', '\n'] ++ rest =
            text.toList ++ ['\r'] ++ '\n' :: rest := by simp
        rw [hParts, lines_append hMem, dropReturn_append_return]
    rw [hLines, List.map_cons, ← ih hRest hTakenRest]
    exact List.filter_cons_of_pos hTaken
  | lastBlank hBlank hLine =>
    rw [lines_of_not_mem hLine]
    split
    next => rfl
    next => exact List.filter_cons_of_neg (hSkipped _ hBlank)
  | lastText text =>
    obtain ⟨hLine, -, c, hc, -⟩ := hTexts text List.mem_cons_self
    rw [lines_of_not_mem hLine, if_neg (List.ne_nil_of_mem hc)]
    exact List.filter_cons_of_pos (hTaken text List.mem_cons_self)

end Text

namespace Stages

open Files

variable {s : Stages} {t : Tree} {path : String} {texts : List String}

/-! ## The snapshots in a text -/

/-- The snapshots that a text gives: it is a document, a value is selected from that, and every
value that the filter makes of this one is a snapshot. It is about one text and does not mention
files. -/
def Gives (s : Stages) (text : String) (snapshots : List Compilation) : Prop :=
  ∃ document value values, Json.parse text = .ok document ∧ s.select document = .ok value ∧
    s.filter value = .ok values ∧
      List.Forall₂ (fun v c => Compilation.ofJson v = .ok c) values snapshots

theorem snapshots_eq_ok_iff {document : Json} {cs : List Compilation} :
    s.snapshots path document = .ok cs ↔
      ∃ value values, s.select document = .ok value ∧ s.filter value = .ok values ∧
        List.Forall₂ (fun v c => Compilation.ofJson v = .ok c) values cs := by
  simp only [snapshots, except_bind_eq_ok_iff, mapError_eq_ok_iff, mapM_eq_ok_iff,
    exists_and_left]

theorem gives_iff (path : String) {text : String} {cs : List Compilation} :
    s.Gives text cs ↔
      ∃ document, Json.parse text = .ok document ∧ s.snapshots path document = .ok cs := by
  simp only [Gives, snapshots_eq_ok_iff, exists_and_left]

/-- All documents of a text are read before the first one is taken through the other stages. -/
theorem snapshotsOfText_eq_ok_iff {byLine : Bool} {content : String} {cs : List Compilation}
    (hDocuments : documents byLine content = texts.mapM Json.parse) :
    s.snapshotsOfText byLine path content = .ok cs ↔
      ∃ css, List.Forall₂ s.Gives texts css ∧ cs = css.flatten := by
  -- the documents stand between the texts and what they give
  have hGives : ∀ css, List.Forall₂ s.Gives texts css ↔
      ∃ documents, List.Forall₂ (fun text document => Json.parse text = .ok document) texts
        documents ∧ List.Forall₂ (fun document cs => s.snapshots path document = .ok cs) documents
        css := fun css => by
    rw [← forall₂_comp_iff]
    exact iff_of_eq (congrArg (List.Forall₂ · texts css) (by
      funext text cs
      exact propext (gives_iff path)))
  rw [snapshotsOfText, hDocuments]
  simp only [except_bind_eq_ok_iff, mapError_eq_ok_iff, mapM_eq_ok_iff, hGives]
  constructor
  · rintro ⟨documents, hParse, css, hSnapshots, hFlatten⟩
    exact ⟨css, ⟨documents, hParse, hSnapshots⟩, (Except.ok.inj hFlatten).symm⟩
  · rintro ⟨css, ⟨documents, hParse, hSnapshots⟩, rfl⟩
    exact ⟨documents, hParse, css, hSnapshots, rfl⟩

/-- A text that is one document. -/
theorem snapshotsOfText_iff {text : String} {cs : List Compilation} :
    s.snapshotsOfText false path text = .ok cs ↔ s.Gives text cs := by
  have hOne : documents false text = [text].mapM Json.parse := by
    rw [documents, if_neg Bool.false_ne_true, List.mapM_cons, List.mapM_nil]
    cases Json.parse text <;> rfl
  rw [snapshotsOfText_eq_ok_iff hOne]
  simp [List.forall₂_cons_left_iff]

/-- A text with documents on its lines. -/
theorem snapshotsOfText_lines_iff {content : String} {cs : List Compilation}
    (hTexts : ∀ text ∈ texts, '\n' ∉ text.toList ∧ '\r' ∉ text.toList ∧
      ∃ c ∈ text.toList, Text.isBlank c = false)
    (hLines : Text.HasOnLines texts content.toList) :
    s.snapshotsOfText true path content = .ok cs ↔
      ∃ css, List.Forall₂ s.Gives texts css ∧ cs = css.flatten := by
  refine snapshotsOfText_eq_ok_iff ?_
  rw [documents, if_pos rfl, Text.filter_lines hTexts hLines, List.mapM_map]
  simp only [Function.comp_def, String.ofList_toList]

/-! ## Files -/

theorem run_snapshotsOfFile (byLine : Bool) {text : String} (h : t.readText path = .ok text) :
    (s.snapshotsOfFile byLine path : StateM Tree _).run t =
      (s.snapshotsOfText byLine path text, t) := by
  rw [snapshotsOfFile, run_bind_of_run (run_readText t path), h]
  rfl

/-- Files that can be read are taken one by one, up to the first one that does not give snapshots,
and the tree stays as it is. -/
theorem run_loadFiles (byLine : Bool) (c : Compilation) {files : List (String × String)}
    (h : ∀ f ∈ files, t.readText f.1 = .ok f.2) :
    (s.loadFiles byLine c (files.map Prod.fst) : StateM Tree _).run t =
      ((files.mapM fun f => s.snapshotsOfText byLine f.1 f.2).map fun css =>
        css.flatten.foldl Compilation.merge c, t) := by
  induction files generalizing c with
  | nil => rfl
  | cons f files ih =>
    obtain ⟨hFirst, hRest⟩ := List.forall_mem_cons.1 h
    rw [List.map_cons, loadFiles, run_bind_of_run (run_snapshotsOfFile byLine hFirst),
      List.mapM_cons]
    cases s.snapshotsOfText byLine f.1 f.2 with
    | error e => rfl
    | ok snapshots =>
      -- the rest is merged into what the first file has given
      dsimp only
      rw [ih _ hRest]
      cases files.mapM fun f => s.snapshotsOfText byLine f.1 f.2 with
      | error e => rfl
      | ok css =>
        show (Except.ok _, t) =
          (Except.ok ((snapshots ++ css.flatten).foldl Compilation.merge c), t)
        rw [List.foldl_append]

theorem run_load (byLine : Bool) {inputs : List String} {files : List (String × String)}
    (hInputs : (resolve inputs : StateM Tree _).run t = (.ok (files.map Prod.fst), t))
    (hFiles : ∀ f ∈ files, t.readText f.1 = .ok f.2) :
    (s.load byLine inputs : StateM Tree _).run t =
      ((files.mapM fun f => s.snapshotsOfText byLine f.1 f.2).map fun css =>
        css.flatten.foldl Compilation.merge .empty, t) := by
  rw [load, run_bind_of_run hInputs]
  exact run_loadFiles byLine .empty hFiles

theorem run_load_single (byLine : Bool) {input : List String} {content : String}
    (hInput : (resolve input : StateM Tree _).run t = (.ok [path], t))
    (hFile : t.readText path = .ok content) :
    (s.load byLine input : StateM Tree _).run t =
      ((s.snapshotsOfText byLine path content).map fun cs =>
        cs.foldl Compilation.merge .empty, t) := by
  rw [load, run_bind_of_run hInput]
  dsimp only
  rw [loadFiles, run_bind_of_run (run_snapshotsOfFile byLine hFile)]
  cases s.snapshotsOfText byLine path content <;> rfl

/-- Inputs that are no patterns stand for themselves. -/
theorem run_resolve {inputs : List String}
    (h : ∀ input ∈ inputs, input.toList.any isWildcard = false) :
    (resolve inputs : StateM Tree _).run t = (.ok inputs, t) := by
  induction inputs with
  | nil => rfl
  | cons input rest ih =>
    obtain ⟨hFirst, hRest⟩ := List.forall_mem_cons.1 h
    have hInput : (resolveInput input : StateM Tree _).run t = (.ok [input], t) := by
      rw [resolveInput, if_neg (by rw [hFirst]; exact Bool.false_ne_true)]
      rfl
    rw [resolve, run_bind_of_run hInput]
    dsimp only
    rw [run_bind_of_run (ih hRest)]
    rfl

theorem files_foldl_merge (c : Compilation) (cs : List Compilation) :
    (cs.foldl Compilation.merge c).files = c.files ++ cs.flatMap (·.files) := by
  induction cs generalizing c with
  | nil => exact (List.append_nil _).symm
  | cons first rest ih =>
    rw [List.foldl_cons, ih, Compilation.files_merge, List.append_assoc, List.flatMap_cons]

/-- One file on whose lines documents stand is loaded like a list of files that hold one of the
documents each: one of the two succeeds if and only if the other one does, and then both give the
compilation that has the files of all snapshots, in the order of the documents and, for each
document, in the order in which the filter gives them. -/
theorem load_lines_iff {input inputs : List String} {path content : String}
    {files : List (String × String)}
    (hTexts : ∀ f ∈ files, '\n' ∉ f.2.toList ∧ '\r' ∉ f.2.toList ∧
      ∃ c ∈ f.2.toList, Text.isBlank c = false)
    (hLines : Text.HasOnLines (files.map Prod.snd) content.toList)
    (hFile : t.readText path = .ok content) (hFiles : ∀ f ∈ files, t.readText f.1 = .ok f.2)
    (hInput : (resolve input : StateM Tree _).run t = (.ok [path], t))
    (hInputs : (resolve inputs : StateM Tree _).run t = (.ok (files.map Prod.fst), t))
    (c : Compilation) :
    ((s.load true input : StateM Tree _).run t = (.ok c, t) ↔
        (s.load false inputs : StateM Tree _).run t = (.ok c, t)) ∧
      ((s.load false inputs : StateM Tree _).run t = (.ok c, t) ↔
        ∃ snapshots, List.Forall₂ s.Gives (files.map Prod.snd) snapshots ∧
          c.files = snapshots.flatten.flatMap (·.files)) := by
  have hTexts : ∀ text ∈ files.map Prod.snd, '\n' ∉ text.toList ∧ '\r' ∉ text.toList ∧
      ∃ c ∈ text.toList, Text.isBlank c = false := List.forall_mem_map.2 hTexts
  -- a compilation has nothing but its files, so that these tell what has been merged
  have hMerged : ∀ css : List (List Compilation),
      c = css.flatten.foldl Compilation.merge .empty ↔
        c.files = css.flatten.flatMap (·.files) := fun css => by
    have hFold : (css.flatten.foldl Compilation.merge .empty).files =
        css.flatten.flatMap (·.files) := files_foldl_merge .empty css.flatten
    rw [← hFold]
    exact ⟨congrArg _, fun h => congrArg Compilation.mk h⟩
  -- Both ways of loading come to the same documents, one read after the other: apart these are the
  -- texts of the files, and together the lines that are not blank.
  have hSeparate : (s.load false inputs : StateM Tree _).run t = (.ok c, t) ↔
      ∃ snapshots, List.Forall₂ s.Gives (files.map Prod.snd) snapshots ∧
        c.files = snapshots.flatten.flatMap (·.files) := by
    rw [run_load false hInputs hFiles, Prod.mk.injEq, and_iff_left rfl]
    simp only [except_map_eq_ok_iff, mapM_eq_ok_iff, snapshotsOfText_iff, hMerged,
      List.forall₂_map_left_iff]
  have hTogether : (s.load true input : StateM Tree _).run t = (.ok c, t) ↔
      ∃ snapshots, List.Forall₂ s.Gives (files.map Prod.snd) snapshots ∧
        c.files = snapshots.flatten.flatMap (·.files) := by
    rw [run_load_single true hInput hFile, Prod.mk.injEq, and_iff_left rfl]
    simp only [except_map_eq_ok_iff, snapshotsOfText_lines_iff hTexts hLines]
    constructor
    · rintro ⟨_, ⟨css, hGives, rfl⟩, hFiles⟩
      exact ⟨css, hGives, (hMerged css).1 hFiles⟩
    · rintro ⟨css, hGives, hFiles⟩
      exact ⟨css.flatten, ⟨css, hGives, rfl⟩, (hMerged css).2 hFiles⟩
  exact ⟨hTogether.trans hSeparate.symm, hSeparate⟩

/-- A document that has a snapshot of one file without types under the name data. -/
def documentText (path : String) : String :=
  "\x7b\"data\":\x7b\"files\":[\x7b\"path\":\"" ++ path ++ "\",\"types\":[]\x7d]\x7d\x7d"

/-- Two documents, with a blank line between them. -/
def twoLines : String :=
  documentText "A.cs" ++ "\n \r\n" ++ documentText "B.cs"

/-- The two documents in files of their own and in one file. -/
def twoDocuments : Tree where
  entries :=
    [(["a.json"], .file (documentText "A.cs").toUTF8),
      (["b.json"], .file (documentText "B.cs").toUTF8), (["both.json"], .file twoLines.toUTF8)]

/-- From the lines of one file the same two source files are loaded as from two files. -/
theorem load_twoDocuments :
    ∃ c, (InputSettings.load ⟨true, some "/data", none, ["both.json"]⟩ : StateM Tree _).run
        twoDocuments = (.ok c, twoDocuments) ∧ c.files.map (·.path) = ["A.cs", "B.cs"] := by
  let stages := InputSettings.stages ⟨true, some "/data", none, ["both.json"]⟩
  have hSeparate : (((stages.load false ["a.json", "b.json"] : StateM Tree _).run
      twoDocuments).1.mapError LoadError.message).map (fun c => c.files.map (·.path)) =
        .ok ["A.cs", "B.cs"] := by
    decide +kernel
  have hTexts : ∀ f ∈ [("a.json", documentText "A.cs"), ("b.json", documentText "B.cs")],
      '\n' ∉ f.2.toList ∧ '\r' ∉ f.2.toList ∧ ∃ c ∈ f.2.toList, Text.isBlank c = false :=
    List.forall_mem_cons.2
      ⟨⟨by decide +kernel, by decide +kernel, '\x7b', by decide +kernel, by decide⟩,
        List.forall_mem_singleton.2
          ⟨by decide +kernel, by decide +kernel, '\x7b', by decide +kernel, by decide⟩⟩
  have hLines : Text.HasOnLines [documentText "A.cs", documentText "B.cs"] twoLines.toList := by
    have hParts : twoLines.toList = (documentText "A.cs").toList ++ ['\n'] ++
        ([' ', '\r'] ++ '\n' :: (documentText "B.cs").toList) := by decide +kernel
    rw [hParts]
    exact .text _ (.inl rfl) (.blank (by simp; decide) (by decide) (.lastText _))
  have hFiles : ∀ f ∈ [("a.json", documentText "A.cs"), ("b.json", documentText "B.cs")],
      twoDocuments.readText f.1 = .ok f.2 :=
    List.forall_mem_cons.2 ⟨by decide +kernel, List.forall_mem_singleton.2 (by decide +kernel)⟩
  have hFile : twoDocuments.readText "both.json" = .ok twoLines := by decide +kernel
  have hOne := @run_resolve twoDocuments ["both.json"] (by decide +kernel)
  have hTwo := @run_resolve twoDocuments ["a.json", "b.json"] (by decide +kernel)
  obtain ⟨c, hOutcome, hPaths⟩ := except_map_eq_ok_iff.1 hSeparate
  have hLoaded : (stages.load false ["a.json", "b.json"] : StateM Tree _).run twoDocuments =
      (.ok c, twoDocuments) := by
    rw [run_load false hTwo hFiles] at hOutcome ⊢
    exact Prod.ext (mapError_eq_ok_iff.1 hOutcome) rfl
  show ∃ c, (stages.load true ["both.json"] : StateM Tree _).run _ = _ ∧ _
  exact ⟨c, (load_lines_iff hTexts hLines hFile hFiles hOne hTwo c).1.2 hLoaded, hPaths.symm⟩

end Stages

end ValidatorGen

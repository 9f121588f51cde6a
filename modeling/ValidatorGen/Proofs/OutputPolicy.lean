import ValidatorGen.Proofs.Accounting
import ValidatorGen.Proofs.SourceText

/-!
# How the output is written does not change what is generated

Apart from names to look for, a configuration says two things: whether dropped annotations are
warned about, and how many spaces a level of the source is indented by. Both leave everything else
as it is. A pass that does not warn gives the output of one that does, without these warnings. With
another indentation the sources differ in the spaces at the start of their lines only.

Both settings are taken in late. Which annotations are read and which are dropped, which types are
refused and which plan is made do not depend on them, so two passes can be compared candidate by
candidate: a change of the output is one of the results of its candidates (`generate_map_eq`). For
warnings the change is a filter, for indentation it is the function that leaves the spaces at the
start of lines away.

Main results:

* `Plan.unindent_source` — a source without its indentation does not depend on it;
* `CandidateResult.ofCandidate_quiet` — what a candidate gives if dropped annotations are not warned
  about;
* `generate_outputPolicy` — the two settings do not change what is generated.
-/

namespace ValidatorGen

open Generation
open Number (Abort Arithmetic)

/-! ## Text without indentation -/

/-- A text with the spaces at the start of each line left out. Line breaks inside of a line of the
layout start lines as well, which does no harm since both indentations have them at the same places.
-/
def unindentChars (text : List Char) : List Char :=
  ['\n'].intercalate ((text.splitOn '\n').map fun line => line.dropWhile (· = ' '))

/-- The same for strings. -/
def unindent (text : String) : String :=
  String.ofList (unindentChars text.toList)

/-- Texts put together are the parts of both, put together. -/
theorem intercalate_append {xs ys : List (List Char)} (hxs : xs ≠ []) (hys : ys ≠ []) :
    ['\n'].intercalate (xs ++ ys) = ['\n'].intercalate xs ++ '\n' :: ['\n'].intercalate ys := by
  induction xs with
  | nil => exact absurd rfl hxs
  | cons x xs ih =>
    cases xs with
    | nil =>
      rw [List.singleton_append, List.intercalate_cons_of_ne_nil hys]
      simp
    | cons x' xs =>
      rw [List.cons_append, List.intercalate_cons_of_ne_nil (by simp), ih (List.cons_ne_nil x' xs),
        List.intercalate_cons_of_ne_nil (List.cons_ne_nil x' xs)]
      simp only [List.append_assoc]

/-- Lines are left without their indentation one by one. -/
theorem unindentChars_append (a b : List Char) :
    unindentChars (a ++ '\n' :: b) = unindentChars a ++ '\n' :: unindentChars b := by
  have hNonempty : ∀ text : List Char,
      (text.splitOn '\n').map (fun line => line.dropWhile (· = ' ')) ≠ [] := by
    intro text hNil
    exact List.splitOn_ne_nil '\n' text (List.map_eq_nil_iff.1 hNil)
  have hSplit : (a ++ '\n' :: b).splitOn '\n' = a.splitOn '\n' ++ b.splitOn '\n' :=
    List.splitOnP_append_cons a b rfl
  -- there is a line on either side, even if it is empty
  unfold unindentChars
  rw [hSplit, List.map_append, intercalate_append (hNonempty a) (hNonempty b)]

theorem unindentChars_space (text : List Char) :
    unindentChars (' ' :: text) = unindentChars text := by
  have hSplit : (' ' :: text).splitOn '\n' = (text.splitOn '\n').modifyHead (' ' :: ·) :=
    List.splitOnP_cons_eq_if_modifyHead ' ' text
  unfold unindentChars
  rw [hSplit]
  cases text.splitOn '\n' with
  | nil => rfl
  | cons line lines => rfl

/-- Spaces at the start of a text are left away, however many there are. -/
theorem unindentChars_spaces (n : Nat) (text : List Char) :
    unindentChars (List.replicate n ' ' ++ text) = unindentChars text := by
  induction n with
  | zero => rfl
  | succ n ih => rw [List.replicate_succ, List.cons_append, unindentChars_space, ih]

/-- The lines of a layout are the same without their indentation. -/
theorem unindentChars_lines (i j : Nat) (ls : List Line) :
    unindentChars (ls.flatMap fun l => l.chars i ++ ['\n']) =
      unindentChars (ls.flatMap fun l => l.chars j ++ ['\n']) := by
  induction ls with
  | nil => rfl
  | cons l ls ih =>
    -- the text of a line may hold line breaks of its own, which are the same for both
    have hLine : ∀ indent, unindentChars (l.chars indent) = unindentChars l.text.toList :=
      fun indent => unindentChars_spaces (l.depth * indent) l.text.toList
    simp only [List.flatMap_cons, List.append_assoc, List.singleton_append]
    rw [unindentChars_append, unindentChars_append, hLine, hLine, ih]

/-- **A source without its indentation does not depend on how deep it is.** Its lines are rendered
from one layout, each with a number of spaces before it. -/
theorem Plan.unindent_source (i j : Nat) (p : Plan) :
    unindent (p.source i) = unindent (p.source j) := by
  unfold unindent source
  rw [Layout.toList_render, Layout.toList_render]
  exact congrArg String.ofList (unindentChars_lines i j (Layout.lines 0 p.steps))

/-! ## Outputs that are written in another way -/

/-- The diagnostics other than warnings about annotations that are dropped. -/
def withoutDropReports (diagnostics : List Diagnostic) : List Diagnostic :=
  diagnostics.filter (·.id ≠ .unsupportedConstraintOperand)

/-- Of warnings about annotations that are dropped nothing is left. -/
theorem withoutDropReports_append {warnings : List Diagnostic} (h : AllDropReports warnings)
    (others : List Diagnostic) :
    withoutDropReports (warnings ++ others) = withoutDropReports others := by
  have hNone : withoutDropReports warnings = [] :=
    List.filter_eq_nil_iff.2 fun w hw => by simp [h w hw]
  have hAppend : withoutDropReports (warnings ++ others) =
      withoutDropReports warnings ++ withoutDropReports others := List.filter_append ..
  rw [hAppend, hNone, List.nil_append]

namespace Artifact

/-- A file with its source left without indentation. -/
def unindented (a : Artifact) : Artifact :=
  { a with source := unindent a.source }

theorem unindented_ofPlan (i j : Nat) (p : Plan) :
    (ofPlan i p).unindented = (ofPlan j p).unindented := by
  unfold unindented ofPlan
  rw [p.unindent_source i j]

end Artifact

namespace CandidateResult

variable {config : Config} {t : SymbolTable} {s : Symbol}

/-- What a candidate gives without warnings about annotations that are dropped. -/
def quiet (r : CandidateResult) : CandidateResult :=
  { r with diagnostics := withoutDropReports r.diagnostics }

/-- What a candidate gives with its source left without indentation. -/
def unindented (r : CandidateResult) : CandidateResult :=
  { r with artifact := r.artifact.map Artifact.unindented }

/-- With the warnings switched off what has been read of a type gives the same without them, whether
or not a constraint is left. -/
theorem ofExtraction_quiet (config : Config) (t : SymbolTable) (s : Symbol) (mode : Mode)
    (e : Extraction) :
    ofExtraction { config with reportDropped := false } t s mode e =
      (ofExtraction { config with reportDropped := true } t s mode e).quiet := by
  have hWarnings := allDropReports_droppedWarnings (t.messageArguments s) e
  -- all warnings about dropped constraints are left out, and no other diagnostic is
  have hNone := withoutDropReports_append hWarnings []
  rw [List.append_nil] at hNone
  unfold ofExtraction quiet
  by_cases hEmpty : e.constraints.isEmpty = true
  · simp only [hEmpty, if_true, withoutDropReports_append hWarnings]
    rfl
  · simp only [hEmpty, Bool.false_eq_true, if_false, if_true, hNone]
    rfl

/-- **Without warnings about dropped annotations** a candidate gives the same but for them. -/
theorem ofCandidate_quiet [Arithmetic] (config : Config) (t : SymbolTable) (s : Symbol) :
    ofCandidate { config with reportDropped := false } t s =
      (ofCandidate { config with reportDropped := true } t s).map quiet := by
  unfold ofCandidate
  cases hEligible : t.eligible s with
  | error reason =>
    -- a refusal is no such warning
    have hKept : withoutDropReports [reason] = [reason] := by
      have hError := SymbolTable.isError_of_eligible hEligible
      refine List.filter_eq_self.2 fun d hd => decide_eq_true fun hId => ?_
      rw [List.mem_singleton.1 hd] at hId
      rw [Diagnostic.isError_eq_false_of_id hId rfl] at hError
      cases hError
    show Except.ok _ = Except.ok (quiet ⟨none, [reason]⟩)
    unfold quiet
    rw [hKept]
  | ok mode =>
    show Except.map _ _ = (Except.map _ _).map quiet
    rw [except_map_map]
    exact congrArg (Except.map · (Extraction.ofSymbol config.symbols s))
      (funext (ofExtraction_quiet config t s mode))

theorem ofExtraction_unindented (config : Config) (i j : UInt64) (t : SymbolTable) (s : Symbol)
    (mode : Mode) (e : Extraction) :
    (ofExtraction { config with indent := i } t s mode e).unindented =
      (ofExtraction { config with indent := j } t s mode e).unindented := by
  unfold ofExtraction unindented
  by_cases hEmpty : e.constraints.isEmpty = true
  · simp only [hEmpty, if_true]
  · simp only [hEmpty, Bool.false_eq_true, if_false, Option.map_some,
      Artifact.unindented_ofPlan i.toNat j.toNat]

/-- **With another indentation** a candidate gives the same without it. -/
theorem ofCandidate_unindented [Arithmetic] (config : Config) (i j : UInt64) (t : SymbolTable)
    (s : Symbol) :
    (ofCandidate { config with indent := i } t s).map unindented =
      (ofCandidate { config with indent := j } t s).map unindented := by
  unfold ofCandidate
  cases t.eligible s with
  | error reason =>
    -- a refusal has no source
    rfl
  | ok mode =>
    show (Except.map _ _).map unindented = (Except.map _ _).map unindented
    rw [except_map_map, except_map_map]
    exact congrArg (Except.map · (Extraction.ofSymbol config.symbols s))
      (funext (ofExtraction_unindented config i j t s mode))

end CandidateResult

namespace PassOutput

/-- The output without warnings about annotations that are dropped. -/
def quiet (o : PassOutput) : PassOutput :=
  { o with diagnostics := withoutDropReports o.diagnostics }

/-- The output with the sources left without indentation. -/
def unindented (o : PassOutput) : PassOutput :=
  { o with artifacts := o.artifacts.map Artifact.unindented }

theorem quiet_ofResults (results : List CandidateResult) :
    (ofResults results).quiet = ofResults (results.map CandidateResult.quiet) := by
  unfold quiet ofResults withoutDropReports
  rw [List.filter_flatMap, List.filterMap_map, List.flatMap_map]
  rfl

theorem unindented_ofResults (results : List CandidateResult) :
    (ofResults results).unindented = ofResults (results.map CandidateResult.unindented) := by
  unfold unindented ofResults
  rw [List.map_filterMap, List.filterMap_map, List.flatMap_map]
  rfl

end PassOutput

/-! ## Passes -/

/-- A change of an output that is made of changes of the results changes what candidates give. It
reduces a statement about passes to one about a single candidate. -/
theorem generate_map_eq [Arithmetic] {change : PassOutput → PassOutput}
    {changeResult : CandidateResult → CandidateResult}
    (h : ∀ results, change (.ofResults results) = .ofResults (results.map changeResult))
    (config : Config) (c : Compilation) :
    (generate config c).map change =
      (((SymbolTable.ofCompilation c).candidates config.symbols).mapM fun s =>
        (CandidateResult.ofCandidate config (.ofCompilation c) s).map changeResult).map
          PassOutput.ofResults := by
  have hChange : change ∘ PassOutput.ofResults = PassOutput.ofResults ∘ List.map changeResult :=
    funext h
  rw [generate, except_map_map, hChange, ← except_map_map, mapM_map_right]

/-- **How the output is written does not change what is generated.** A pass that does not warn about
dropped annotations gives the output of one that does, without the warnings; and passes with two
indentations give the same but for the spaces at the start of lines. -/
theorem generate_outputPolicy [Arithmetic] (config : Config) (c : Compilation) :
    generate { config with reportDropped := false } c =
      (generate { config with reportDropped := true } c).map PassOutput.quiet ∧
    ∀ i j, (generate { config with indent := i } c).map PassOutput.unindented =
      (generate { config with indent := j } c).map PassOutput.unindented := by
  constructor
  · rw [generate_map_eq PassOutput.quiet_ofResults, generate,
      funext (CandidateResult.ofCandidate_quiet config (.ofCompilation c))]
  · intro i j
    rw [generate_map_eq PassOutput.unindented_ofResults,
      generate_map_eq PassOutput.unindented_ofResults]
    simp only [CandidateResult.ofCandidate_unindented config i j]

end ValidatorGen

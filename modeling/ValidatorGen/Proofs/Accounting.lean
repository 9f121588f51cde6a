import ValidatorGen.Proofs.FirstPieces
import ValidatorGen.Proofs.Outcome

/-!
# Every candidate is accounted for once

The output of a pass is made of one block for each candidate, in their order. A block shows one of
three verdicts: the candidate is *refused* and the only diagnostic says why; or the validator would
have *no effect*, which is warned about; or there is a validator. A pass that is given up accounts
for no candidate at all.

A verdict is not computed by the pass; it is what a reader of the output can tell. The three blocks
are told apart by what is in them: only a refusal has an error, and only a validator comes with a
source. So the relation `CandidateResult.Shows` determines the verdict, and it can be asked whether
the verdict is the right one, that is, a refusal exactly when a condition fails.

What is said of the whole output is read off the blocks: how many of each there are is not counted
anywhere, but follows from there being one for each candidate.

Main results:

* `SymbolTable.isError_of_eligible` — what is said about a candidate that is refused is an error;
* `CandidateResult.Shows.unique` — a block shows one verdict;
* `PassOutput.accounts_outcome` — the output of a pass accounts for its candidates;
* `generate_accounts_iff` — a pass accounts for its candidates exactly unless an annotation of one
  of them aborts.
-/

namespace ValidatorGen

open Number (Arithmetic)

/-! ## Refusals are errors -/

namespace Diagnostic

/-- Whether a diagnostic is an error is decided by its entry in the catalog. -/
theorem isError_report {id : DiagnosticId} (h : id.descriptor.severity = .error)
    (location : Location) (arguments : MessageArguments) :
    (report id location arguments).isError = true :=
  decide_eq_true h

theorem isError_eq_false_of_id {d : Diagnostic} {id : DiagnosticId} (h : d.id = id)
    (hWarning : id.descriptor.severity = .warning) : d.isError = false := by
  unfold isError severity
  rw [h, hWarning]
  rfl

/-- There is no error among diagnostics none of which is one. -/
theorem anyError_eq_false {ds : List Diagnostic} (h : ∀ d ∈ ds, d.isError = false) :
    anyError ds = false := by
  refine List.any_eq_false.2 fun d hd => ?_
  rw [h d hd]
  exact Bool.false_ne_true

end Diagnostic

namespace SymbolTable

variable {t : SymbolTable} {s : Symbol} {d : Diagnostic}

theorem isError_of_violation? (h : t.violation? s = some d) : d.isError = true := by
  unfold violation? at h
  obtain ⟨condition, hCondition, hFails⟩ := List.exists_of_findSome?_eq_some h
  obtain rfl : condition = some d := hFails
  -- whichever condition fails, it is reported by an error of its own
  simp only [List.mem_cons, List.not_mem_nil, or_false] at hCondition
  rcases hCondition with hKind | hUnresolved | hStatic | hHidden | hHiddenAround | hClosed |
    hClosedAround
  · split at hKind
    · cases hKind
    · obtain rfl := Option.some.inj hKind
      exact Diagnostic.isError_report rfl _ _
  · obtain ⟨p, -, rfl⟩ := Option.map_eq_some_iff.1 hUnresolved.symm
    exact Diagnostic.isError_report rfl _ _
  · obtain ⟨p, -, rfl⟩ := Option.map_eq_some_iff.1 hStatic.symm
    exact Diagnostic.isError_report rfl _ _
  · split at hHidden
    · cases hHidden
    · obtain rfl := Option.some.inj hHidden
      exact Diagnostic.isError_report rfl _ _
  · obtain ⟨outer, -, rfl⟩ := Option.map_eq_some_iff.1 hHiddenAround.symm
    exact Diagnostic.isError_report rfl _ _
  · obtain ⟨p, -, rfl⟩ := Option.map_eq_some_iff.1 hClosed.symm
    exact Diagnostic.isError_report rfl _ _
  · -- the first type around it that is closed has a piece that says so
    obtain ⟨outer, -, hOuter⟩ := List.exists_of_findSome?_eq_some hClosedAround.symm
    obtain ⟨p, -, rfl⟩ := Option.map_eq_some_iff.1 hOuter
    exact Diagnostic.isError_report rfl _ _

/-- **What is said about a type that is refused is an error.** The condition that fails first
reports it, and the last of them is that the method can be added. -/
theorem isError_of_eligible (h : t.eligible s = .error d) : d.isError = true := by
  unfold eligible at h
  split at h
  · next other hViolation =>
    obtain rfl := Except.error.inj h
    exact isError_of_violation? hViolation
  · cases hMode : s.mode with
    | ok mode =>
      rw [hMode] at h
      cases h
    | error location =>
      rw [hMode] at h
      obtain rfl := Except.error.inj h
      exact Diagnostic.isError_report rfl _ _

end SymbolTable

/-! ## Verdicts -/

/-- What becomes of a candidate. The three cases are the only ones. -/
inductive Verdict where
  /-- A condition fails, which is the only thing that is said. -/
  | refused (reason : Diagnostic)
  /-- A validator would check nothing. -/
  | ineffective
  /-- There is a validator. -/
  | generated
  deriving Repr, DecidableEq

/-- Whether all of some diagnostics are warnings about annotations that are dropped. -/
def AllDropReports (warnings : List Diagnostic) : Prop :=
  ∀ w ∈ warnings, w.id = .unsupportedConstraintOperand

theorem AllDropReports.isError_eq_false {warnings : List Diagnostic} (h : AllDropReports warnings) :
    ∀ w ∈ warnings, w.isError = false :=
  fun w hw => Diagnostic.isError_eq_false_of_id (h w hw) rfl

namespace CandidateResult

/-- Whether what a candidate gives shows a verdict: one error; or some warnings about annotations
that are dropped, and then either one more warning, or the file of a plan with the namespace and
the names of the types from the outermost one down to the candidate. -/
def Shows (config : Config) (t : SymbolTable) (s : Symbol) (r : CandidateResult) : Verdict → Prop
  | .refused reason => reason.isError ∧ r = ⟨none, [reason]⟩
  | .ineffective => ∃ warnings last, AllDropReports warnings ∧ last.id = .noEffect ∧
      r = ⟨none, warnings ++ [last]⟩
  | .generated => ∃ plan warnings, plan.inNamespace = t.namespace? s ∧
      plan.levels.map Level.name = (t.chain s).map Symbol.name ∧ AllDropReports warnings ∧
      r = ⟨some (.ofPlan config.indent.toNat plan), warnings⟩

variable {config : Config} {t : SymbolTable} {s : Symbol} {r : CandidateResult} {v w : Verdict}

/-- Only a refusal has an error in it. -/
theorem Shows.anyError_iff (h : r.Shows config t s v) :
    Diagnostic.anyError r.diagnostics = true ↔ ∃ reason, v = .refused reason := by
  cases v with
  | refused reason =>
    obtain ⟨hError, rfl⟩ := h
    -- the block is that one error
    have hAny : Diagnostic.anyError [reason] = true := by simp [Diagnostic.anyError, hError]
    exact iff_of_true hAny ⟨reason, rfl⟩
  | ineffective =>
    obtain ⟨warnings, last, hWarnings, hLast, rfl⟩ := h
    -- the last diagnostic is a warning too, with an identifier of its own
    have hEach : ∀ d ∈ warnings ++ [last], d.isError = false := by
      intro d hd
      rcases List.mem_append.1 hd with hd | hd
      · exact hWarnings.isError_eq_false d hd
      · rw [List.mem_singleton.1 hd]
        exact Diagnostic.isError_eq_false_of_id hLast rfl
    have hNone := Diagnostic.anyError_eq_false hEach
    refine iff_of_false ?_ (by simp)
    rw [hNone]
    exact Bool.false_ne_true
  | generated =>
    obtain ⟨plan, warnings, -, -, hWarnings, rfl⟩ := h
    have hNone := Diagnostic.anyError_eq_false hWarnings.isError_eq_false
    refine iff_of_false ?_ (by simp)
    rw [hNone]
    exact Bool.false_ne_true

/-- Only a validator is a file. -/
theorem Shows.isSome_artifact_iff (h : r.Shows config t s v) :
    r.artifact.isSome = true ↔ v = .generated := by
  cases v with
  | refused reason =>
    obtain ⟨-, rfl⟩ := h
    simp
  | ineffective =>
    obtain ⟨_, _, -, -, rfl⟩ := h
    simp
  | generated =>
    obtain ⟨_, _, -, -, -, rfl⟩ := h
    simp

/-- **What a candidate gives shows one verdict only.** -/
theorem Shows.unique (hv : r.Shows config t s v) (hw : r.Shows config t s w) : v = w := by
  -- an error tells a refusal from the others, and a file tells a validator from the others
  have hRefused := hv.anyError_iff.symm.trans hw.anyError_iff
  have hGenerated := hv.isSome_artifact_iff.symm.trans hw.isSome_artifact_iff
  cases v with
  | refused reason =>
    -- both refusals give the one diagnostic there is
    obtain ⟨other, rfl⟩ := hRefused.1 ⟨reason, rfl⟩
    obtain ⟨-, rfl⟩ := hv
    obtain ⟨-, hSame⟩ := hw
    have hReasons := congrArg diagnostics hSame
    rw [List.singleton_inj.1 hReasons]
  | ineffective =>
    cases w with
    | refused reason => exact absurd (hRefused.2 ⟨reason, rfl⟩) (by simp)
    | ineffective => rfl
    | generated => exact absurd (hGenerated.2 rfl) (by simp)
  | generated => exact (hGenerated.1 rfl).symm

/-- Whether what a candidate gives is one of the three blocks, and a refusal exactly if a condition
fails, which is the one that is named. -/
structure AccountsFor (config : Config) (t : SymbolTable) (s : Symbol) (r : CandidateResult) :
    Prop where
  verdict : ∃! v, r.Shows config t s v
  refused_iff : ∀ reason, r.Shows config t s (.refused reason) ↔ t.eligible s = .error reason

/-- A verdict that is shown is the one of a block, if it is a refusal exactly when a condition
fails. -/
theorem Shows.accountsFor (h : r.Shows config t s v)
    (hRefused : ∀ reason, v = .refused reason ↔ t.eligible s = .error reason) :
    r.AccountsFor config t s where
  verdict := ⟨v, h, fun _ hw => hw.unique h⟩
  refused_iff := fun reason => by
    rw [← hRefused reason]
    constructor
    · intro hReason
      exact h.unique hReason
    · rintro rfl
      exact h

theorem allDropReports_droppedWarnings (arguments : MessageArguments) (e : Extraction) :
    AllDropReports (droppedWarnings arguments e) := by
  intro w hw
  obtain ⟨d, -, rfl⟩ := List.mem_map.1 hw
  rfl

/-- What a type with nothing in its way gives shows one of the other two verdicts. -/
theorem exists_shows_ofExtraction (config : Config) (t : SymbolTable) (s : Symbol) (mode : Mode)
    (e : Extraction) :
    ∃ v, (∀ reason, v ≠ .refused reason) ∧
      (ofExtraction config t s mode e).Shows config t s v := by
  have hWarnings : AllDropReports
      (if config.reportDropped then droppedWarnings (t.messageArguments s) e else []) := by
    split
    · exact allDropReports_droppedWarnings _ e
    · exact fun w hw => absurd hw List.not_mem_nil
  unfold ofExtraction
  -- a type without a constraint is given no validator, and there is one warning more
  by_cases hNone : e.constraints.isEmpty = true
  · refine ⟨.ineffective, by simp, ?_⟩
    simp only [hNone, if_true]
    exact ⟨_, _, hWarnings, rfl, rfl⟩
  · refine ⟨.generated, by simp, ?_⟩
    simp only [hNone]
    refine ⟨_, _, rfl, ?_, hWarnings, rfl⟩
    -- the levels of the plan are those of the chain
    unfold Plan.ofSymbol
    rw [List.map_map]
    rfl

/-- **What a candidate gives accounts for it.** -/
theorem accountsFor_outcome [Arithmetic] (config : Config) (t : SymbolTable) (s : Symbol) :
    (outcome config t s).AccountsFor config t s := by
  unfold outcome
  cases hEligible : t.eligible s with
  | error reason =>
    have hShows : Shows config t s ⟨none, [reason]⟩ (.refused reason) :=
      ⟨SymbolTable.isError_of_eligible hEligible, rfl⟩
    refine hShows.accountsFor fun other => ?_
    rw [hEligible]
    exact ⟨fun h => congrArg Except.error (Verdict.refused.inj h),
      fun h => congrArg Verdict.refused (Except.error.inj h)⟩
  | ok mode =>
    -- with nothing in its way the type is not refused, so both sides of the equivalence are false
    obtain ⟨v, hOther, hShows⟩ := exists_shows_ofExtraction config t s mode
      (Extraction.outcome config.symbols s)
    refine hShows.accountsFor fun reason => ?_
    rw [hEligible]
    exact iff_of_false (hOther reason) (by simp)

/-- A candidate gives an error exactly if it is refused. -/
theorem AccountsFor.anyError_iff (h : r.AccountsFor config t s) :
    Diagnostic.anyError r.diagnostics = true ↔ ∃ reason, t.eligible s = .error reason := by
  obtain ⟨v, hShows, -⟩ := h.verdict
  rw [hShows.anyError_iff]
  refine exists_congr fun reason => ?_
  rw [← h.refused_iff reason]
  constructor
  · rintro rfl
    exact hShows
  · intro hReason
    exact hShows.unique hReason

/-- Annotations that are dropped are warned about only if that is asked for. -/
theorem reportDropped_of_mem_diagnostics [Arithmetic] {d : Diagnostic}
    (h : d ∈ (outcome config t s).diagnostics) (hDropped : d.id = .unsupportedConstraintOperand) :
    config.reportDropped = true := by
  unfold outcome at h
  cases hEligible : t.eligible s with
  | error reason =>
    rw [hEligible] at h
    obtain rfl := List.mem_singleton.1 h
    have hError := SymbolTable.isError_of_eligible hEligible
    rw [Diagnostic.isError_eq_false_of_id hDropped rfl] at hError
    cases hError
  | ok mode =>
    rw [hEligible] at h
    -- otherwise there is at most the warning that the validator has no effect
    by_contra hQuiet
    unfold ofExtraction at h
    simp only [hQuiet] at h
    split at h
    · obtain rfl := List.mem_singleton.1 h
      cases hDropped
    · exact absurd h List.not_mem_nil

end CandidateResult

/-! ## Candidates -/

/-- Whether a piece has the marker among its attributes or the capability among its bases. -/
def TypeHead.Asks (known : KnownSymbols) (u : TypeHead) : Prop :=
  (∃ a ∈ u.attributes, bareName a.name = bareName known.marker) ∨
    ∃ base ∈ u.baseList, bareName base = bareName known.capability

theorem TypeHead.asksForValidator_iff {known : KnownSymbols} {u : TypeHead} :
    u.asksForValidator known = true ↔ u.Asks known := by
  have hSame : ∀ expected actual : String,
      sameSymbol expected actual = true ↔ bareName actual = bareName expected :=
    fun _ _ => beq_iff_eq.trans eq_comm
  unfold asksForValidator Asks
  simp only [Bool.or_eq_true, List.any_eq_true, hSame]

theorem SymbolTable.mem_candidates_iff {t : SymbolTable} {known : KnownSymbols} {s : Symbol} :
    s ∈ t.candidates known ↔ s ∈ t.symbols ∧ ∃ p ∈ s.pieces, p.head.Asks known := by
  unfold candidates Symbol.isCandidate
  simp only [List.mem_filter, List.any_eq_true, TypeHead.asksForValidator_iff]

/-! ## Whole passes -/

/-- Whether an output accounts for each candidate of a table once. The fields speak of the
candidates, of the blocks and of the output as a whole, in this order. -/
structure PassOutput.Accounts (config : Config) (t : SymbolTable) (out : PassOutput) : Prop where
  /-- The output is cut into blocks, one for each candidate in their order. -/
  blocks : ∃ results, out = .ofResults results ∧
    List.Forall₂ (fun s r => r.AccountsFor config t s) (t.candidates config.symbols) results
  /-- The candidates are the types that ask for a validator on some piece, no type twice. -/
  mem_candidates_iff : ∀ s, s ∈ t.candidates config.symbols ↔
    s ∈ t.symbols ∧ ∃ p ∈ s.pieces, p.head.Asks config.symbols
  distinct : (t.candidates config.symbols).Pairwise fun s r => s.key ≠ r.key
  /-- They come in the order of their first pieces. -/
  ordered : ((t.candidates config.symbols).map Symbol.first).Sublist t.pieces
  reportDropped : ∀ d ∈ out.diagnostics, d.id = .unsupportedConstraintOperand →
    config.reportDropped = true
  hasErrors_iff : out.hasErrors = true ↔
    ∃ s ∈ t.candidates config.symbols, ∃ reason, t.eligible s = .error reason

/-- **The output of a pass accounts for its candidates.** -/
theorem PassOutput.accounts_outcome [Arithmetic] (config : Config) (t : SymbolTable) :
    (outcome config t).Accounts config t where
  blocks := by
    refine ⟨_, rfl, ?_⟩
    rw [List.forall₂_map_right_iff, List.forall₂_same]
    exact fun s _ => CandidateResult.accountsFor_outcome config t s
  mem_candidates_iff := fun _ => SymbolTable.mem_candidates_iff
  distinct := t.pairwise_key_symbols.filter _
  ordered := (List.filter_sublist.map _).trans t.map_first_symbols_sublist
  reportDropped := by
    intro d hd hDropped
    obtain ⟨r, hr, hd⟩ := List.mem_flatMap.1 hd
    obtain ⟨s, -, rfl⟩ := List.mem_map.1 hr
    exact CandidateResult.reportDropped_of_mem_diagnostics hd hDropped
  hasErrors_iff := by
    -- the diagnostics are those of the blocks one after the other
    have hBlock : ∀ s, Diagnostic.anyError (CandidateResult.outcome config t s).diagnostics = true ↔
        ∃ reason, t.eligible s = .error reason :=
      fun s => (CandidateResult.accountsFor_outcome config t s).anyError_iff
    unfold hasErrors outcome ofResults Diagnostic.anyError
    unfold Diagnostic.anyError at hBlock
    simp only [List.any_flatMap, List.any_map, List.any_eq_true, Function.comp_apply, ← hBlock]

/-- **Every candidate is accounted for once**, in a pass over any program, exactly unless some
annotation of a candidate that is not refused aborts. -/
theorem generate_accounts_iff [Arithmetic] (config : Config) (c : Compilation) :
    (∃ out, generate config c = .ok out ∧ out.Accounts config (.ofCompilation c)) ↔
      ∀ s ∈ (SymbolTable.ofCompilation c).candidates config.symbols,
        ∀ mode, (SymbolTable.ofCompilation c).eligible s = .ok mode →
          ∀ f ∈ Finding.ofSymbol config.symbols s, ¬ f.Aborts := by
  rw [← SymbolTable.not_abortsPass_iff]
  constructor
  · rintro ⟨out, hOut, -⟩
    exact (generate_eq_ok_iff.1 hOut).1
  · intro hGood
    exact ⟨_, generate_of_not_abortsPass config hGood, PassOutput.accounts_outcome config _⟩

end ValidatorGen

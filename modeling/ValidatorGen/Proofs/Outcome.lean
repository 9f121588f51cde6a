import ValidatorGen.Generation.Pass
import ValidatorGen.Proofs.Traversal

/-!
# When a pass is given up, and what it gives otherwise

Reading an operand can abort a whole pass. Here the operands are told apart that parse, that do not,
and that abort; an annotation then *contributes* a constraint, contributes nothing, or aborts. A
pass in which no annotation aborts is a function of the contributions alone.

The operands of an annotation are read in order and no further than needed: of two, the second one
is not looked at when the first does not parse. So an annotation with two bad operands is dropped,
and not given up, if the first one is merely no number. `Finding.Aborts` says this with a bound on
the index, which is why it is stated for every kind at once.

From here on proofs speak of `Finding.outcome`, `CandidateResult.outcome` and `PassOutput.outcome`,
which are plain functions, and `generate_eq_ok_iff` is the only place where a pass is taken apart.

Main results:

* `Finding.read_eq_ok_iff` — an annotation is read exactly when it does not abort, and gives its
  contribution;
* `generate_eq_ok_iff` — a pass gives an output exactly when no annotation of an eligible candidate
  aborts, and which output.
-/

namespace ValidatorGen

open Number (Abort Arithmetic)

/-! ## What an annotation contributes -/

/-- How many operands a constraint of a kind requires. -/
def ConstraintKind.required : ConstraintKind → Nat
  | .greaterThan | .lessThan => 1
  | .between => 2

namespace Attribute

/-- The operand that the argument at an index parses to. -/
def parsed? [Arithmetic] (a : Attribute) (index : Nat) : Option Operand :=
  match a.operand? index with
  | .ok operand => operand
  | .error _ => none

/-- The constraint that an attribute of a kind contributes, which it does if the operands it
requires all parse. It is defined whether or not the attribute aborts; only together with `Aborts`
it says what is read. -/
def contribution? [Arithmetic] (a : Attribute) (kind : ConstraintKind) (member : String) :
    Option Constraint :=
  match kind with
  | .greaterThan => (a.parsed? 0).map fun operand =>
      .bound ⟨member, operand, .greater, a.isInclusive⟩
  | .lessThan => (a.parsed? 0).map fun operand =>
      .bound ⟨member, operand, .less, a.isInclusive⟩
  | .between => (a.parsed? 0).bind fun low => (a.parsed? 1).map fun high =>
      .range ⟨member, low, high⟩

/-- Whether an attribute of a kind aborts: the first required operand that does not parse is the
text of a decimal whose point cannot be placed. -/
def Aborts [Arithmetic] (a : Attribute) (kind : ConstraintKind) : Prop :=
  ∃ index < kind.required, (∀ earlier < index, (a.parsed? earlier).isSome) ∧
    a.operand? index = .error .misplacedPoint

theorem member_of_contribution? [Arithmetic] {a : Attribute} {kind : ConstraintKind}
    {member : String}
    {c : Constraint} (h : a.contribution? kind member = some c) : c.member = member := by
  cases kind with
  | greaterThan =>
    obtain ⟨_, -, rfl⟩ := Option.map_eq_some_iff.1 h
    rfl
  | lessThan =>
    obtain ⟨_, -, rfl⟩ := Option.map_eq_some_iff.1 h
    rfl
  | between =>
    obtain ⟨_, -, hHigh⟩ := Option.bind_eq_some_iff.1 h
    obtain ⟨_, -, rfl⟩ := Option.map_eq_some_iff.1 hHigh
    rfl

theorem aborts_iff_of_required_one [Arithmetic] {a : Attribute} {kind : ConstraintKind}
    (h : kind.required = 1) : a.Aborts kind ↔ a.operand? 0 = .error .misplacedPoint := by
  unfold Aborts
  rw [h]
  constructor
  · rintro ⟨index, hIndex, -, hAbort⟩
    rwa [Nat.lt_one_iff.1 hIndex] at hAbort
  · exact fun hAbort => ⟨0, Nat.zero_lt_one, fun _ hLt => absurd hLt (Nat.not_lt_zero _), hAbort⟩

theorem aborts_iff_of_required_two [Arithmetic] {a : Attribute} {kind : ConstraintKind}
    (h : kind.required = 2) :
    a.Aborts kind ↔ a.operand? 0 = .error .misplacedPoint ∨
      (a.parsed? 0).isSome ∧ a.operand? 1 = .error .misplacedPoint := by
  unfold Aborts
  rw [h]
  constructor
  · rintro ⟨index, hIndex, hEarlier, hAbort⟩
    obtain rfl | rfl : index = 0 ∨ index = 1 := by omega
    · exact Or.inl hAbort
    · exact Or.inr ⟨hEarlier 0 Nat.zero_lt_one, hAbort⟩
  · rintro (hAbort | ⟨hFirst, hAbort⟩)
    · exact ⟨0, Nat.zero_lt_two, fun _ hLt => absurd hLt (Nat.not_lt_zero _), hAbort⟩
    · exact ⟨1, Nat.one_lt_two, fun _ hLt => (Nat.lt_one_iff.1 hLt).symm ▸ hFirst, hAbort⟩

/-- The constraint an attribute asks for is its contribution, unless it aborts. -/
theorem constraint?_eq_ok_iff [Arithmetic] (a : Attribute) (kind : ConstraintKind) (member : String)
    (c : Option Constraint) :
    a.constraint? kind member = .ok c ↔ ¬ a.Aborts kind ∧ c = a.contribution? kind member := by
  -- an operand aborts, does not parse or parses; a second one is looked at only after a first one
  cases kind with
  | greaterThan =>
    rw [aborts_iff_of_required_one rfl, contribution?, constraint?, parsed?]
    cases a.operand? 0 with
    | error abort => simp [bind, Except.bind]
    | ok first => cases first <;> simp [bind, Except.bind, pure, Except.pure, eq_comm]
  | lessThan =>
    rw [aborts_iff_of_required_one rfl, contribution?, constraint?, parsed?]
    cases a.operand? 0 with
    | error abort => simp [bind, Except.bind]
    | ok first => cases first <;> simp [bind, Except.bind, pure, Except.pure, eq_comm]
  | between =>
    rw [aborts_iff_of_required_two rfl, contribution?, constraint?, parsed?, parsed?]
    cases a.operand? 0 with
    | error abort => simp [bind, Except.bind]
    | ok first =>
      cases first with
      | none => simp [bind, Except.bind, pure, Except.pure, eq_comm]
      | some low =>
        cases a.operand? 1 with
        | error abort => simp [bind, Except.bind]
        | ok second => cases second <;> simp [bind, Except.bind, pure, Except.pure, eq_comm]

end Attribute

namespace Finding

/-- The constraint an annotation contributes. -/
def contribution? [Arithmetic] (f : Finding) : Option Constraint :=
  f.applied.contribution? f.kind f.member.name

/-- Whether reading the operands of an annotation aborts. -/
def Aborts [Arithmetic] (f : Finding) : Prop :=
  f.applied.Aborts f.kind

/-- An annotation with what it contributes. -/
def outcome [Arithmetic] (f : Finding) : ReadFinding :=
  ⟨f.path, f.member.name, f.applied.name, f.member.span, f.contribution?⟩

/-- **An annotation is read exactly when it does not abort**, and gives its contribution. -/
theorem read_eq_ok_iff [Arithmetic] (f : Finding) (r : ReadFinding) :
    f.read = .ok r ↔ ¬ f.Aborts ∧ r = f.outcome := by
  unfold read
  cases hRead : f.applied.constraint? f.kind f.member.name with
  | error abort =>
    -- if it did not abort, what it asks for would be its contribution and no error
    refine iff_of_false (fun h => nomatch h) fun h => ?_
    have hOk := (f.applied.constraint?_eq_ok_iff f.kind f.member.name _).2 ⟨h.1, rfl⟩
    rw [hRead] at hOk
    cases hOk
  | ok c =>
    obtain ⟨hNot, rfl⟩ := (f.applied.constraint?_eq_ok_iff f.kind f.member.name c).1 hRead
    constructor
    · intro h
      exact ⟨hNot, (Except.ok.inj h).symm⟩
    · rintro ⟨-, rfl⟩
      rfl

end Finding

/-! ## What a pass gives -/

namespace Extraction

/-- The annotations on a type with what they contribute. -/
def outcome [Arithmetic] (known : KnownSymbols) (s : Symbol) : Extraction :=
  ⟨(Finding.ofSymbol known s).map Finding.outcome⟩

theorem ofSymbol_eq_ok_iff [Arithmetic] {known : KnownSymbols} {s : Symbol} {e : Extraction} :
    ofSymbol known s = .ok e ↔
      (∀ f ∈ Finding.ofSymbol known s, ¬ f.Aborts) ∧ e = outcome known s := by
  -- reading goes finding by finding and is given up at the first one that aborts
  have hTraversal : ∀ findings, (Finding.ofSymbol known s).mapM Finding.read = .ok findings ↔
      (∀ f ∈ Finding.ofSymbol known s, ¬ f.Aborts) ∧
        findings = (Finding.ofSymbol known s).map Finding.outcome :=
    fun _ => mapM_eq_ok_iff_of_total fun f _ r => f.read_eq_ok_iff r
  rw [ofSymbol, except_map_eq_ok_iff]
  constructor
  · rintro ⟨findings, hRead, rfl⟩
    obtain ⟨hGood, rfl⟩ := (hTraversal findings).1 hRead
    exact ⟨hGood, rfl⟩
  · rintro ⟨hGood, rfl⟩
    exact ⟨_, (hTraversal _).2 ⟨hGood, rfl⟩, rfl⟩

theorem constraints_outcome [Arithmetic] (known : KnownSymbols) (s : Symbol) :
    (outcome known s).constraints = (Finding.ofSymbol known s).filterMap Finding.contribution? := by
  rw [constraints, outcome, List.filterMap_map]
  rfl

theorem dropped_outcome [Arithmetic] (known : KnownSymbols) (s : Symbol) :
    (outcome known s).dropped =
      ((Finding.ofSymbol known s).filter (·.contribution?.isNone)).map Finding.outcome := by
  rw [dropped, outcome, List.filter_map]
  rfl

end Extraction

/-- Whether nothing is in the way of a type but one of its annotations aborts. -/
def SymbolTable.Aborts [Arithmetic] (t : SymbolTable) (known : KnownSymbols) (s : Symbol) : Prop :=
  (∃ mode, t.eligible s = .ok mode) ∧ ∃ f ∈ Finding.ofSymbol known s, f.Aborts

/-- What a candidate gives as a function of what its annotations contribute. -/
def CandidateResult.outcome [Arithmetic] (config : Config) (t : SymbolTable) (s : Symbol) :
    CandidateResult :=
  match t.eligible s with
  | .error diagnostic => ⟨none, [diagnostic]⟩
  | .ok mode => ofExtraction config t s mode (Extraction.outcome config.symbols s)

theorem CandidateResult.ofCandidate_eq_ok_iff [Arithmetic] {config : Config} {t : SymbolTable}
    {s : Symbol} {r : CandidateResult} :
    ofCandidate config t s = .ok r ↔ ¬ t.Aborts config.symbols s ∧ r = outcome config t s := by
  unfold ofCandidate outcome SymbolTable.Aborts
  cases hEligible : t.eligible s with
  | error diagnostic => simp [eq_comm]
  | ok mode =>
    -- only here are the annotations read at all
    have hModes : ∃ other, (Except.ok mode : Except Diagnostic Mode) = .ok other := ⟨mode, rfl⟩
    rw [except_map_eq_ok_iff]
    constructor
    · rintro ⟨e, hRead, rfl⟩
      obtain ⟨hGood, rfl⟩ := Extraction.ofSymbol_eq_ok_iff.1 hRead
      exact ⟨fun ⟨_, f, hf, hAborts⟩ => hGood f hf hAborts, rfl⟩
    · rintro ⟨hGood, rfl⟩
      refine ⟨_, Extraction.ofSymbol_eq_ok_iff.2 ⟨fun f hf hAborts => ?_, rfl⟩, rfl⟩
      exact hGood ⟨hModes, f, hf, hAborts⟩

/-- The results of all candidates as functions of what their annotations contribute. -/
def PassOutput.outcome [Arithmetic] (config : Config) (t : SymbolTable) : PassOutput :=
  .ofResults ((t.candidates config.symbols).map (CandidateResult.outcome config t))

theorem PassOutput.artifacts_outcome [Arithmetic] (config : Config) (t : SymbolTable) :
    (outcome config t).artifacts =
      (t.candidates config.symbols).filterMap fun s =>
        (CandidateResult.outcome config t s).artifact := by
  rw [outcome, ofResults, List.filterMap_map]
  rfl

/-- Whether a pass is given up. -/
def SymbolTable.AbortsPass [Arithmetic] (t : SymbolTable) (known : KnownSymbols) : Prop :=
  ∃ s ∈ t.candidates known, t.Aborts known s

theorem SymbolTable.not_abortsPass_iff [Arithmetic] {t : SymbolTable} {known : KnownSymbols} :
    ¬ t.AbortsPass known ↔ ∀ s ∈ t.candidates known, ∀ mode, t.eligible s = .ok mode →
      ∀ f ∈ Finding.ofSymbol known s, ¬ f.Aborts := by
  unfold AbortsPass SymbolTable.Aborts
  simp only [not_exists, not_and, forall_exists_index]

/-- **A pass gives an output exactly when no annotation of an eligible candidate aborts.** -/
theorem generate_eq_ok_iff [Arithmetic] {config : Config} {c : Compilation} {out : PassOutput} :
    generate config c = .ok out ↔
      ¬ (SymbolTable.ofCompilation c).AbortsPass config.symbols ∧
        out = .outcome config (.ofCompilation c) := by
  -- the candidates are gone through one after the other, up to the first one that aborts
  have hTraversal := @mapM_eq_ok_iff_of_total _ _ _
    (CandidateResult.ofCandidate config (.ofCompilation c))
    ((SymbolTable.ofCompilation c).Aborts config.symbols)
    (CandidateResult.outcome config (.ofCompilation c))
    ((SymbolTable.ofCompilation c).candidates config.symbols)
    fun s _ r => CandidateResult.ofCandidate_eq_ok_iff
  have hGood : ¬ (SymbolTable.ofCompilation c).AbortsPass config.symbols ↔
      ∀ s ∈ (SymbolTable.ofCompilation c).candidates config.symbols,
        ¬ (SymbolTable.ofCompilation c).Aborts config.symbols s := by
    simp only [SymbolTable.AbortsPass, not_exists, not_and]
  rw [generate, except_map_eq_ok_iff, hGood]
  constructor
  · rintro ⟨results, hResults, rfl⟩
    obtain ⟨hAll, rfl⟩ := hTraversal.1 hResults
    exact ⟨hAll, rfl⟩
  · rintro ⟨hAll, rfl⟩
    exact ⟨_, hTraversal.2 ⟨hAll, rfl⟩, rfl⟩

theorem generate_of_not_abortsPass [Arithmetic] (config : Config) {c : Compilation}
    (h : ¬ (SymbolTable.ofCompilation c).AbortsPass config.symbols) :
    generate config c = .ok (.outcome config (.ofCompilation c)) :=
  generate_eq_ok_iff.2 ⟨h, rfl⟩

theorem generate_of_abortsPass [Arithmetic] {config : Config} {c : Compilation}
    (h : (SymbolTable.ofCompilation c).AbortsPass config.symbols) :
    generate config c = .error .misplacedPoint := by
  cases hOutput : generate config c with
  | error abort => cases abort; rfl
  | ok out => exact absurd h (generate_eq_ok_iff.1 hOutput).1

end ValidatorGen

import ValidatorGen.Proofs.Related
import ValidatorGen.Proofs.Ties

/-!
# The order of the attributes on a member

Whether the attributes of fields and properties may be put in another order without changing what is
generated. They may, with one exception: two constraints on one member with the same form and with
operands that are equal as numbers but are spelled differently, such as `1.5M` and `1.50M`. The keys
of such constraints are equal, so they are written in the order in which they are found.

That ties are the only exception is shown in both directions. Where ties agree, sorting by key gives
the same fragments, since in each group of equal keys all fragments of a member are equal. Where
they do not, there is an order that shows it: every constraint of a member comes first in some order
of its attributes, so of two tied ones each can be made the first, and equal artifacts would mean
equal fragments.

Other members of the type contribute under the same keys too, and stand around the ones in question.
That their shares begin and end at the same places in either order is what makes it possible to look
at one member alone.

Main results:

* `SymbolTable.abortsPass_iff_of_reordered` — whether a pass is given up does not depend
  on the order;
* `CandidateResult.artifact_eq_iff` — two orders give the same artifact exactly if they give the
  same fragments in the same order;
* `artifacts_eq_of_reordered_iff` — no order of attributes changes the artifacts of a pass, exactly
  unless tied constraints on one member have different fragments.
-/

namespace ValidatorGen

open Number (Arithmetic)

/-! ## What the attributes of a member contribute -/

namespace Member

/-- The constraints that the attributes of a member contribute, in order. -/
def contributions [Arithmetic] (known : KnownSymbols) (m : Member) : List Constraint :=
  m.attributes.filterMap fun a =>
    (ConstraintKind.ofName? known a.name).bind fun kind => a.contribution? kind m.name

/-- Whether an attribute of a member aborts. -/
def Aborts [Arithmetic] (known : KnownSymbols) (m : Member) : Prop :=
  ∃ a ∈ m.attributes, ∃ kind, ConstraintKind.ofName? known a.name = some kind ∧ a.Aborts kind

theorem member_of_mem_contributions [Arithmetic] {known : KnownSymbols} {m : Member}
    {c : Constraint} (h : c ∈ m.contributions known) : c.member = m.name := by
  obtain ⟨a, -, hAsked⟩ := List.mem_filterMap.1 h
  obtain ⟨kind, -, hContribution⟩ := Option.bind_eq_some_iff.1 hAsked
  exact Attribute.member_of_contribution? hContribution

theorem filterMap_contribution?_ofMember [Arithmetic] (known : KnownSymbols) (path : String)
    (m : Member) :
    (Finding.ofMember known path m).filterMap Finding.contribution? = m.contributions known := by
  rw [Finding.ofMember, List.filterMap_filterMap, contributions]
  refine congrArg (List.filterMap · m.attributes) (funext fun a => ?_)
  cases ConstraintKind.ofName? known a.name <;> rfl

theorem exists_aborts_ofMember_iff [Arithmetic] (known : KnownSymbols) (path : String)
    (m : Member) :
    (∃ f ∈ Finding.ofMember known path m, f.Aborts) ↔ m.Aborts known := by
  constructor
  · rintro ⟨f, hf, hAborts⟩
    obtain ⟨a, ha, hFinding⟩ := List.mem_filterMap.1 hf
    obtain ⟨kind, hKind, rfl⟩ := Option.map_eq_some_iff.1 hFinding
    exact ⟨a, ha, kind, hKind, hAborts⟩
  · rintro ⟨a, ha, kind, hKind, hAborts⟩
    refine ⟨⟨path, m, a, kind⟩, List.mem_filterMap.2 ⟨a, ha, ?_⟩, hAborts⟩
    rw [hKind]
    rfl

end Member

namespace Symbol

/-- The fields and properties of a type, piece by piece. -/
def dataMembers (s : Symbol) : List Member :=
  s.pieces.flatMap fun p => p.head.dataMembers

theorem contributions_eq [Arithmetic] (known : KnownSymbols) (s : Symbol) :
    s.contributions known = s.dataMembers.flatMap (Member.contributions known) := by
  rw [contributions, Finding.ofSymbol, dataMembers, List.filterMap_flatMap, List.flatMap_assoc]
  refine congrArg (List.flatMap · s.pieces) (funext fun p => ?_)
  rw [List.filterMap_flatMap]
  exact congrArg (List.flatMap · p.head.dataMembers)
    (funext (Member.filterMap_contribution?_ofMember known p.path))

theorem exists_aborts_iff [Arithmetic] (known : KnownSymbols) (s : Symbol) :
    (∃ f ∈ Finding.ofSymbol known s, f.Aborts) ↔ ∃ m ∈ s.dataMembers, m.Aborts known := by
  constructor
  · rintro ⟨f, hf, hAborts⟩
    obtain ⟨p, hp, hf⟩ := List.mem_flatMap.1 hf
    obtain ⟨m, hm, hf⟩ := List.mem_flatMap.1 hf
    exact ⟨m, List.mem_flatMap.2 ⟨p, hp, hm⟩,
      (Member.exists_aborts_ofMember_iff known p.path m).1 ⟨f, hf, hAborts⟩⟩
  · rintro ⟨m, hm, hAborts⟩
    obtain ⟨p, hp, hm⟩ := List.mem_flatMap.1 hm
    obtain ⟨f, hf, hAborts⟩ := (Member.exists_aborts_ofMember_iff known p.path m).2 hAborts
    exact ⟨f, List.mem_flatMap.2 ⟨p, hp, List.mem_flatMap.2 ⟨m, hm, hf⟩⟩, hAborts⟩

end Symbol

/-! ## Members with their attributes in another order -/

/-- A member with its attributes in another order; only fields and properties may have one. -/
structure Member.Reordered (m n : Member) : Prop where
  attributes : m.attributes.Perm n.attributes
  bare : m.bare = n.bare
  others : m.kind.isData = false → m = n

/-- A program with the attributes of each field and property in another order. -/
def Compilation.Reordered (c d : Compilation) : Prop :=
  c.Related Member.Reordered d

namespace Member

variable {known : KnownSymbols} {m n : Member}

theorem Reordered.refl (m : Member) : m.Reordered m :=
  ⟨List.Perm.refl _, rfl, fun _ => rfl⟩

theorem Reordered.name_eq (h : m.Reordered n) : m.name = n.name := by
  have hName := congrArg Member.name h.bare
  exact hName

theorem Reordered.isData_eq (h : m.Reordered n) : m.kind.isData = n.kind.isData := by
  have hKind := congrArg (fun k => k.kind.isData) h.bare
  exact hKind

theorem Reordered.perm_contributions [Arithmetic] (h : m.Reordered n) :
    (m.contributions known).Perm (n.contributions known) := by
  rw [contributions, contributions, h.name_eq]
  exact h.attributes.filterMap _

theorem Reordered.aborts_iff [Arithmetic] (h : m.Reordered n) :
    m.Aborts known ↔ n.Aborts known := by
  simp only [Aborts, h.attributes.mem_iff]

end Member

/-! ## Types -/

section Reordered

variable {R : Member → Member → Prop} {known : KnownSymbols} {s r : Symbol}

/-- The fields and properties of related types are related. -/
theorem Symbol.Related.forall₂_dataMembers (hR : ∀ m n, R m n → m.Reordered n)
    (h : s.Related R r) : List.Forall₂ R s.dataMembers r.dataMembers := by
  refine List.rel_flatMap h ?_
  rintro p q ⟨-, members, hMembers, hHead⟩
  have hData : q.head.dataMembers = members.filter (·.kind.isData) := by
    rw [hHead]
    rfl
  show List.Forall₂ R p.head.dataMembers q.head.dataMembers
  rw [hData]
  exact forall₂_filter hMembers fun m n hmn => (hR m n hmn).isData_eq

theorem Symbol.Related.exists_aborts_iff [Arithmetic] (hR : ∀ m n, R m n → m.Reordered n)
    (h : s.Related R r) :
    (∃ f ∈ Finding.ofSymbol known s, f.Aborts) ↔ ∃ f ∈ Finding.ofSymbol known r, f.Aborts := by
  rw [s.exists_aborts_iff, r.exists_aborts_iff]
  exact exists_mem_iff_of_forall₂ (h.forall₂_dataMembers hR) fun m n hmn => (hR m n hmn).aborts_iff

open Constraint

theorem tiedAt_flatMap [Arithmetic] (members : List Member) (name : String)
    (k : ℕ ×ₗ (ℕ ×ₗ WithTop ℚ) ×ₗ WithBot (ℕ ×ₗ WithTop ℚ)) :
    tiedAt (members.flatMap (Member.contributions known)) name k =
      members.flatMap fun m => tiedAt (m.contributions known) name k := by
  simp only [tiedAt, List.filter_flatMap]

theorem perm_tiedAt {cs ds : List Constraint} (h : cs.Perm ds) (name : String)
    (k : ℕ ×ₗ (ℕ ×ₗ WithTop ℚ) ×ₗ WithBot (ℕ ×ₗ WithTop ℚ)) :
    (tiedAt cs name k).Perm (tiedAt ds name k) :=
  (h.filter _).filter _

/-- Other orders of attributes give constraints with the same keys. -/
theorem Symbol.Related.sameKeys [Arithmetic] (hR : ∀ m n, R m n → m.Reordered n)
    (h : s.Related R r) :
    SameKeys (s.contributions known) (r.contributions known) := by
  have hMembers := h.forall₂_dataMembers hR
  rw [Symbol.contributions_eq, Symbol.contributions_eq]
  refine ⟨?_, fun name k => ?_⟩
  · rw [List.map_flatMap, List.map_flatMap]
    refine flatMap_eq_flatMap_of_forall₂ hMembers fun m n hmn => ?_
    refine map_eq_map_of_perm (hR m n hmn).perm_contributions fun a ha b hb => ?_
    rw [Member.member_of_mem_contributions ha, Member.member_of_mem_contributions hb]
  · rw [tiedAt_flatMap, tiedAt_flatMap, List.length_flatMap, List.length_flatMap]
    refine congrArg List.sum (map_eq_map_of_forall₂ hMembers fun m n hmn => ?_)
    exact (perm_tiedAt (hR m n hmn).perm_contributions name k).length_eq

variable {config : Config} {t u : SymbolTable} {mode : Mode}

theorem Plan.ofSymbol_withConstraints (t : SymbolTable) (s : Symbol) (capability : String)
    (mode : Mode) (cs : List Constraint) :
    ofSymbol t s capability mode cs =
      { ofSymbol t s capability mode [] with constraints := cs } := rfl

/-- Plans that differ in their constraints give the same file exactly if these have the same
fragments, provided that their members and keys are the same. A source can be taken apart again:
what stands in front of the return expression and behind it does not depend on the constraints. -/
theorem Artifact.ofPlan_eq_iff {cs ds : List Constraint} (indent : Nat) (p : Plan)
    (hMember : cs.map member = ds.map member) (hKey : cs.map formPlace = ds.map formPlace) :
    ofPlan indent { p with constraints := cs } = ofPlan indent { p with constraints := ds } ↔
      cs.map fragment = ds.map fragment := by
  have hHintName : Plan.hintName { p with constraints := cs } =
      Plan.hintName { p with constraints := ds } := rfl
  have hTypeName : Plan.typeName { p with constraints := cs } =
      Plan.typeName { p with constraints := ds } := rfl
  rw [ofPlan, ofPlan, hHintName, hTypeName, Artifact.mk.injEq]
  simp only [true_and]
  constructor
  · intro h
    have hText := congrArg String.toList h
    -- what stands around the return expression is the same in both files
    rw [Plan.toList_source_withConstraints, Plan.toList_source_withConstraints] at hText
    have hReturn := List.append_cancel_left (List.append_cancel_left hText)
    exact map_fragment_eq_of_conjunctionChars_eq hMember hKey (List.append_cancel_right hReturn)
  · intro h
    refine String.toList_injective ?_
    rw [Plan.toList_source_withConstraints, Plan.toList_source_withConstraints, h]

/-- **Two orders give the same artifact exactly if they give the same fragments in the same
order.** -/
theorem CandidateResult.artifact_eq_iff [Arithmetic] (hR : ∀ m n, R m n → m.Reordered n)
    (hTables : List.Forall₂ (Piece.Related R) t.pieces u.pieces) (h : s.Related R r)
    (hEligible : t.eligible s = .ok mode) :
    (outcome config t s).artifact = (outcome config u r).artifact ↔
      (arrange (s.contributions config.symbols)).map fragment =
        (arrange (r.contributions config.symbols)).map fragment := by
  have hKeys : SameKeys (s.contributions config.symbols) (r.contributions config.symbols) :=
    h.sameKeys hR
  have hEligible' : u.eligible r = .ok mode := by
    rw [← SymbolTable.eligible_eq_of_related hTables h, hEligible]
  have hNil := hKeys.eq_nil_iff
  rw [artifact_outcome hEligible, artifact_outcome hEligible']
  by_cases hNone : s.contributions config.symbols = []
  · -- without constraints there is no artifact in either order
    rw [if_pos hNone, if_pos (hNil.1 hNone), hNone, hNil.1 hNone]
    exact iff_of_true rfl rfl
  · rw [if_neg hNone, if_neg (mt hNil.2 hNone), Option.some.injEq,
      ← Plan.ofSymbol_eq_of_related hTables h, Plan.ofSymbol_withConstraints,
      Plan.ofSymbol_withConstraints t s _ _ (arrange (r.contributions config.symbols))]
    exact Artifact.ofPlan_eq_iff _ _ hKeys.map_member_arrange_eq hKeys.map_formPlace_arrange_eq

theorem CandidateResult.artifact_eq_none_iff [Arithmetic] (hR : ∀ m n, R m n → m.Reordered n)
    (hTables : List.Forall₂ (Piece.Related R) t.pieces u.pieces) (h : s.Related R r) :
    (outcome config t s).artifact = none ↔ (outcome config u r).artifact = none := by
  have hEligible := SymbolTable.eligible_eq_of_related hTables h
  have hKeys : SameKeys (s.contributions config.symbols) (r.contributions config.symbols) :=
    h.sameKeys hR
  cases hMode : t.eligible s with
  | error diagnostic =>
    rw [artifact_outcome_of_error hMode, artifact_outcome_of_error (hEligible ▸ hMode)]
  | ok mode =>
    rw [artifact_outcome hMode, artifact_outcome (hEligible ▸ hMode)]
    simp [hKeys.eq_nil_iff]

end Reordered

/-! ## Passes -/

section Pass

variable {R : Member → Member → Prop} {c d : Compilation}

theorem SymbolTable.abortsPass_iff_of_reordered [Arithmetic] (hR : ∀ m n, R m n → m.Reordered n)
    (h : c.Related R d) (known : KnownSymbols) :
    (ofCompilation c).AbortsPass known ↔ (ofCompilation d).AbortsPass known := by
  have hTables := h.forall₂_pieces fun m n hmn => (hR m n hmn).bare
  refine exists_mem_iff_of_forall₂ (forall₂_candidates hTables known) fun s r hsr => ?_
  rw [Aborts, Aborts, eligible_eq_of_related hTables hsr, hsr.exists_aborts_iff hR]

/-- Lists of options of which the same ones are absent have the same values only if they are
equal. -/
theorem forall₂_eq_of_filterMap_eq {α β γ : Type} {S : α → β → Prop} {f : α → Option γ}
    {g : β → Option γ} {as : List α} {bs : List β} (h : List.Forall₂ S as bs)
    (hNone : ∀ a b, S a b → (f a = none ↔ g b = none))
    (hValues : as.filterMap f = bs.filterMap g) :
    List.Forall₂ (fun a b => S a b ∧ f a = g b) as bs := by
  induction h with
  | nil => exact .nil
  | @cons a b as bs hab _ ih =>
    -- an absent option is absent on the other side too and adds nothing to either list
    cases hf : f a with
    | none =>
      have hg := (hNone a b hab).1 hf
      rw [List.filterMap_cons_none hf, List.filterMap_cons_none hg] at hValues
      exact .cons ⟨hab, hf.trans hg.symm⟩ (ih hValues)
    | some x =>
      obtain ⟨y, hg⟩ := Option.ne_none_iff_exists'.1 fun hg => by
        rw [(hNone a b hab).2 hg] at hf
        cases hf
      rw [List.filterMap_cons_some hf, List.filterMap_cons_some hg, List.cons.injEq] at hValues
      exact .cons ⟨hab, by rw [hf, hg, hValues.1]⟩ (ih hValues.2)

/-- Any contribution of a member comes first in some order of the attributes. -/
theorem Member.exists_reordered_cons [Arithmetic] {known : KnownSymbols} {m : Member}
    (hData : m.kind.isData = true) {a : Constraint} (ha : a ∈ m.contributions known) :
    ∃ n, m.Reordered n ∧ ∃ rest, n.contributions known = a :: rest := by
  obtain ⟨x, hx, hContribution⟩ := List.mem_filterMap.1 ha
  obtain ⟨before, after, hSplit⟩ := List.append_of_mem hx
  refine ⟨{ m with attributes := x :: (before ++ after) }, ⟨?_, rfl, fun hOther => ?_⟩, ?_⟩
  · rw [hSplit]
    exact List.perm_middle
  · rw [hData] at hOther
    cases hOther
  · exact ⟨_, List.filterMap_cons_some hContribution⟩

/-- If no order of attributes changes the artifacts, then no other order of the attributes of one
member changes the order of the fragments with one key that the member contributes. -/
theorem map_tiedAt_eq_of_reordered [Arithmetic] {config : Config}
    (hSame : ∀ d, c.Reordered d → (PassOutput.outcome config (.ofCompilation d)).artifacts =
      (PassOutput.outcome config (.ofCompilation c)).artifacts)
    {s : Symbol} (hs : s ∈ (SymbolTable.ofCompilation c).candidates config.symbols) {mode : Mode}
    (hEligible : (SymbolTable.ofCompilation c).eligible s = .ok mode) {m n : Member}
    (hm : m ∈ s.dataMembers) (hmn : m.Reordered n) (name : String)
    (k : ℕ ×ₗ (ℕ ×ₗ WithTop ℚ) ×ₗ WithBot (ℕ ×ₗ WithTop ℚ)) :
    (Constraint.tiedAt (m.contributions config.symbols) name k).map Constraint.fragment =
      (Constraint.tiedAt (n.contributions config.symbols) name k).map Constraint.fragment := by
  classical
  -- the program in which each member equal to `m` is replaced by `n`
  let f : Member → Member := Function.update id m n
  have hf : ∀ l : Member, l.Reordered (f l) := by
    intro l
    by_cases hl : l = m
    · rw [hl]
      simpa [f] using hmn
    · simpa [f, hl] using Member.Reordered.refl l
  have hR : ∀ l l' : Member, l' = f l → l.Reordered l' := by
    rintro l _ rfl
    exact hf l
  have hRelated : c.Related (fun l l' => l' = f l) (c.mapMembers f) :=
    Compilation.related_mapMembers (R := fun l l' => l' = f l) (fun _ => rfl) c
  have hTables := hRelated.forall₂_pieces fun l l' hl => (hR l l' hl).bare
  -- equal artifacts of the passes are equal artifacts of this candidate
  have hValues := hSame (c.mapMembers f) (c.related_mapMembers hf)
  rw [PassOutput.artifacts_outcome, PassOutput.artifacts_outcome] at hValues
  obtain ⟨r, -, hsr, hArtifact⟩ := exists_related_of_mem (forall₂_eq_of_filterMap_eq
    (SymbolTable.forall₂_candidates hTables config.symbols)
    (fun _ _ hab => CandidateResult.artifact_eq_none_iff hR hTables hab) hValues.symm) hs
  -- the contributions of `s` are those of its members one after the other
  have hFragments := (CandidateResult.artifact_eq_iff hR hTables hsr hEligible).1 hArtifact
  have hTied := Constraint.agree_of_map_arrange_eq (hsr.sameKeys hR) hFragments name k
  have hMapped : r.dataMembers = s.dataMembers.map f := by
    rw [map_eq_map_of_forall₂ (g := id) (hsr.forall₂_dataMembers hR) fun _ _ hl => hl.symm,
      List.map_id]
  rw [s.contributions_eq, r.contributions_eq, tiedAt_flatMap, tiedAt_flatMap, List.map_flatMap,
    List.map_flatMap, hMapped, List.flatMap_map] at hTied
  -- each member has as many in either order, so their shares end at the same places
  have hMember := eq_of_flatMap_eq_flatMap (fun l _ => by
    rw [List.length_map, List.length_map]
    exact (perm_tiedAt (hf l).perm_contributions name k).length_eq) hTied m hm
  simpa [f] using hMember

/-- Whether any two constraints on one declaration of a member that have the same key have the same
fragment, for all members of types that are given a validator. -/
def SymbolTable.TiesAgree [Arithmetic] (t : SymbolTable) (known : KnownSymbols) : Prop :=
  ∀ s ∈ t.candidates known, ∀ mode, t.eligible s = .ok mode → ∀ m ∈ s.dataMembers,
    ∀ a ∈ m.contributions known, ∀ b ∈ m.contributions known, a.Tied b → a.fragment = b.fragment

/-- Where ties agree, another order of attributes gives the same fragments in the same order. -/
theorem Symbol.Related.map_fragment_arrange_eq [Arithmetic] {known : KnownSymbols} {s r : Symbol}
    (h : s.Related Member.Reordered r)
    (hTies : ∀ m ∈ s.dataMembers, ∀ a ∈ m.contributions known, ∀ b ∈ m.contributions known,
      a.Tied b → a.fragment = b.fragment) :
    (Constraint.arrange (s.contributions known)).map Constraint.fragment =
      (Constraint.arrange (r.contributions known)).map Constraint.fragment := by
  have hMembers := (List.forall₂_and_left _ _).2
    ⟨fun m hm => hm, h.forall₂_dataMembers fun _ _ hmn => hmn⟩
  refine Constraint.map_arrange_eq (h.sameKeys fun _ _ hmn => hmn).members fun name k => ?_
  rw [s.contributions_eq, r.contributions_eq, tiedAt_flatMap, tiedAt_flatMap, List.map_flatMap,
    List.map_flatMap]
  refine flatMap_eq_flatMap_of_forall₂ hMembers fun m n ⟨hm, hmn⟩ => ?_
  -- what a member contributes under one key is rearranged, but all of one fragment
  have hPerm : (m.contributions known).Perm (n.contributions known) := hmn.perm_contributions
  refine map_eq_map_of_perm (perm_tiedAt hPerm name k) fun a ha b hb => ?_
  obtain ⟨ha, hKeyA⟩ := List.mem_filter.1 ha
  obtain ⟨hb, hKeyB⟩ := List.mem_filter.1 hb
  refine hTies m hm a (List.mem_filter.1 ha).1 b (List.mem_filter.1 hb).1 ?_
  rw [Constraint.tied_iff, of_decide_eq_true hKeyA, of_decide_eq_true hKeyB]

/-- Where ties agree, no order of attributes changes the artifacts. -/
theorem SymbolTable.TiesAgree.artifacts_eq [Arithmetic] {config : Config}
    (hTies : (ofCompilation c).TiesAgree config.symbols) (h : c.Reordered d) :
    (PassOutput.outcome config (.ofCompilation d)).artifacts =
      (PassOutput.outcome config (.ofCompilation c)).artifacts := by
  have hTables := h.forall₂_pieces fun _ _ hmn => hmn.bare
  have hCandidates := (List.forall₂_and_left _ _).2
    ⟨fun s hs => hs, forall₂_candidates hTables config.symbols⟩
  -- candidate by candidate, the artifact is the same
  have hEach := map_eq_map_of_forall₂ hCandidates (f := fun s =>
    (CandidateResult.outcome config (ofCompilation c) s).artifact) (g := fun r =>
    (CandidateResult.outcome config (ofCompilation d) r).artifact) fun s r ⟨hs, hsr⟩ => by
      cases hMode : (ofCompilation c).eligible s with
      | error diagnostic =>
        rw [CandidateResult.artifact_outcome_of_error hMode,
          CandidateResult.artifact_outcome_of_error (eligible_eq_of_related hTables hsr ▸ hMode)]
      | ok mode =>
        rw [CandidateResult.artifact_eq_iff (fun _ _ hmn => hmn) hTables hsr hMode]
        exact hsr.map_fragment_arrange_eq (hTies s hs mode hMode)
  have hJoined := congrArg (List.filterMap id) hEach
  rw [List.filterMap_map, List.filterMap_map] at hJoined
  rw [PassOutput.artifacts_outcome, PassOutput.artifacts_outcome]
  exact hJoined.symm

/-- Where no order of attributes changes the artifacts, ties agree. -/
theorem SymbolTable.tiesAgree_of_artifacts_eq [Arithmetic] {config : Config}
    (hSame : ∀ d, c.Reordered d → (PassOutput.outcome config (.ofCompilation d)).artifacts =
      (PassOutput.outcome config (.ofCompilation c)).artifacts) :
    (ofCompilation c).TiesAgree config.symbols := by
  intro s hs mode hEligible m hm a ha b hb hTied
  -- only the attributes of fields and properties may be put in another order
  have hData : m.kind.isData = true := by
    obtain ⟨p, -, hMember⟩ := List.mem_flatMap.1 hm
    exact (List.mem_filter.1 hMember).2
  -- each of the two constraints is the first one with its key in some order
  have hFirst : ∀ x ∈ m.contributions config.symbols,
      ((Constraint.tiedAt (m.contributions config.symbols) m.name x.formPlace).map
        Constraint.fragment).head? = some x.fragment := by
    intro x hx
    obtain ⟨n, hmn, rest, hContributions⟩ := Member.exists_reordered_cons hData hx
    have hName : x.member = m.name := Member.member_of_mem_contributions hx
    rw [map_tiedAt_eq_of_reordered hSame hs hEligible hm hmn, hContributions, Constraint.tiedAt,
      List.filter_cons_of_pos (by simpa using hName), List.filter_cons_of_pos (by simp)]
    rfl
  have hBoth := (hFirst a ha).symm.trans (Constraint.tied_iff.1 hTied ▸ hFirst b hb)
  exact Option.some.inj hBoth

/-- **No order of attributes changes the artifacts of a pass**, exactly unless two constraints on
one declaration of a member have the same key and different fragments, and the pass is not given up.
A pass that is given up has no artifacts in any order, so for it there is nothing to show. -/
theorem artifacts_eq_of_reordered_iff [Arithmetic] (config : Config) (c : Compilation) :
    (∀ d, c.Reordered d → (generate config d).map PassOutput.artifacts =
      (generate config c).map PassOutput.artifacts) ↔
    (SymbolTable.ofCompilation c).AbortsPass config.symbols ∨
      (SymbolTable.ofCompilation c).TiesAgree config.symbols := by
  have hAborts : ∀ d, c.Reordered d → ((SymbolTable.ofCompilation c).AbortsPass config.symbols ↔
      (SymbolTable.ofCompilation d).AbortsPass config.symbols) :=
    fun d h => SymbolTable.abortsPass_iff_of_reordered (fun _ _ hmn => hmn) h config.symbols
  by_cases hPass : (SymbolTable.ofCompilation c).AbortsPass config.symbols
  · -- a pass that is given up is given up in any order, and has no artifacts
    refine iff_of_true (fun d h => ?_) (Or.inl hPass)
    rw [generate_of_abortsPass hPass, generate_of_abortsPass ((hAborts d h).1 hPass)]
  · have hOutcome : ∀ d, c.Reordered d →
        ((generate config d).map PassOutput.artifacts =
          (generate config c).map PassOutput.artifacts ↔
        (PassOutput.outcome config (.ofCompilation d)).artifacts =
          (PassOutput.outcome config (.ofCompilation c)).artifacts) := by
      intro d h
      rw [generate_of_not_abortsPass config hPass,
        generate_of_not_abortsPass config (mt (hAborts d h).2 hPass)]
      exact ⟨Except.ok.inj, congrArg Except.ok⟩
    constructor
    · intro hSame
      exact Or.inr (SymbolTable.tiesAgree_of_artifacts_eq fun d h => (hOutcome d h).1 (hSame d h))
    · rintro (hAbort | hTies) d h
      · exact absurd hAbort hPass
      · exact (hOutcome d h).2 (hTies.artifacts_eq h)

end Pass

end ValidatorGen

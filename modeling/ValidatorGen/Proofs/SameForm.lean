import ValidatorGen.Generation.Pass
import ValidatorGen.Proofs.Traversal

/-!
# Types of one form

Most of what a pass does with a type depends on little of its pieces: the conditions on it, what is
said about it, and all of its validator but the constraints. Two types that agree in that much have
the same *form*. Two tables *mirror* each other when the types of one correspond to types of the
other that have the same form and are nested in corresponding types; how the pieces are told apart,
how many there are and what else stands in them does not count.

The notion is what the results about changed programs rest on. Files that are split, pieces that are
added to a type and members that nothing reads each change the tables in a way of their own; that
none of this reaches the output is proved by naming the types that correspond and showing that they
have one form. Everything the check and the plan read is then equal, field by field, and along the
types around by induction on the way out (`Nests.forall₂_ancestors`).

Main results:

* `SymbolTable.Nests.forall₂_chain` — corresponding types are nested in corresponding types, all the
  way out;
* `SymbolTable.Mirrors.eligible_eq` — the conditions on corresponding types come out the same;
* `SymbolTable.Mirrors.plan_eq` — so do their plans;
* `generate_eq_of_mirrors` — two programs give the same output if their tables mirror each other and
  the same is found on corresponding candidates.
-/

namespace ValidatorGen

open Number (Arithmetic)

/-! ## How types are nested -/

namespace SymbolTable

/-- The types around a type, by whether there is one. -/
theorem ancestors_of_enclosing? {t : SymbolTable} {s outer : Symbol}
    (h : t.enclosing? s = some outer) : t.ancestors s = t.ancestors outer ++ [outer] := by
  rw [ancestors]
  split
  · next hNone => rw [h] at hNone; cases hNone
  · next found hFound =>
    rw [h] at hFound
    rw [Option.some.inj hFound]

theorem ancestors_of_enclosing?_eq_none {t : SymbolTable} {s : Symbol}
    (h : t.enclosing? s = none) : t.ancestors s = [] := by
  rw [ancestors]
  split
  · rfl
  · next found hFound => rw [h] at hFound; cases hFound

section Nests

variable {S : Symbol → Symbol → Prop} {t u : SymbolTable} {s r : Symbol}

/-- Whether types that correspond are nested in types that correspond. Nothing is asked of types
that correspond to none. -/
def Nests (S : Symbol → Symbol → Prop) (t u : SymbolTable) : Prop :=
  ∀ s r, S s r → Option.Rel S (t.enclosing? s) (u.enclosing? r)

/-- Corresponding types have corresponding types around them, in the same number. By induction on
the way out from the first one; the second one has a type around it exactly if the first one has. -/
theorem Nests.forall₂_ancestors (h : Nests S t u) (hsr : S s r) :
    List.Forall₂ S (t.ancestors s) (u.ancestors r) := by
  induction s using ancestors.induct t generalizing r with
  | case1 s hs =>
    have hOuter := h s r hsr
    rw [hs] at hOuter
    generalize hr : u.enclosing? r = outer' at hOuter
    cases hOuter
    rw [ancestors_of_enclosing?_eq_none hs, ancestors_of_enclosing?_eq_none hr]
    exact .nil
  | case2 s outer hs ih =>
    have hOuter := h s r hsr
    rw [hs] at hOuter
    generalize hr : u.enclosing? r = outer' at hOuter
    cases hOuter with
    | some hSame =>
      rw [ancestors_of_enclosing? hs, ancestors_of_enclosing? hr]
      exact List.rel_append (ih hSame) (.cons hSame .nil)

theorem Nests.forall₂_chain (h : Nests S t u) (hsr : S s r) :
    List.Forall₂ S (t.chain s) (u.chain r) :=
  List.rel_append (h.forall₂_ancestors hsr) (.cons hsr .nil)

theorem Nests.rel_outermost (h : Nests S t u) (hsr : S s r) :
    S (t.outermost s) (u.outermost r) := by
  have hAncestors := h.forall₂_ancestors hsr
  rw [outermost, outermost]
  generalize t.ancestors s = outers at hAncestors
  generalize u.ancestors r = outers' at hAncestors
  cases hAncestors with
  | nil => exact hsr
  | cons hOuter _ => exact hOuter

end Nests

end SymbolTable

/-! ## The form of a type -/

namespace Symbol

/-- The accessibility that the first piece which spells one out gives. -/
def statedAccessibility? (s : Symbol) : Option Accessibility :=
  s.pieces.findSome? fun p => Accessibility.ofModifiers? p.head.modifiers

/-- The place of the first piece that is no type, and what it is. -/
def unresolved? (s : Symbol) : Option (Location × String) :=
  (s.pieces.find? (!·.head.isNamedType)).map fun p => (p.location, p.head.symbol)

/-- The place of the first piece that is declared static. -/
def staticPlace? (s : Symbol) : Option Location :=
  (s.pieces.find? (·.head.hasModifier "static")).map Piece.location

/-- The place of the first piece that is not declared partial. -/
def nonPartialPlace? (s : Symbol) : Option Location :=
  s.nonPartialPiece?.map Piece.location

/-- Whether two types agree in all that the conditions and the plan depend on, apart from the types
around them. Of the pieces themselves only the first one is seen, and of the others no more than a
place each where a condition fails. -/
structure SameForm (s r : Symbol) : Prop where
  level : Level.ofSymbol s = Level.ofSymbol r
  inNamespace : s.first.head.ownNamespace? = r.first.head.ownNamespace?
  location : s.first.location = r.first.location
  access : s.statedAccessibility? = r.statedAccessibility?
  unresolved : s.unresolved? = r.unresolved?
  static : s.staticPlace? = r.staticPlace?
  nonPartial : s.nonPartialPlace? = r.nonPartialPlace?
  mode : s.mode = r.mode

theorem SameForm.refl (s : Symbol) : s.SameForm s :=
  ⟨rfl, rfl, rfl, rfl, rfl, rfl, rfl, rfl⟩

theorem SameForm.symm {s r : Symbol} (h : s.SameForm r) : r.SameForm s :=
  ⟨h.level.symm, h.inNamespace.symm, h.location.symm, h.access.symm, h.unresolved.symm,
    h.static.symm, h.nonPartial.symm, h.mode.symm⟩

theorem SameForm.trans {s r q : Symbol} (h : s.SameForm r) (h' : r.SameForm q) : s.SameForm q :=
  ⟨h.level.trans h'.level, h.inNamespace.trans h'.inNamespace, h.location.trans h'.location,
    h.access.trans h'.access, h.unresolved.trans h'.unresolved, h.static.trans h'.static,
    h.nonPartial.trans h'.nonPartial, h.mode.trans h'.mode⟩

theorem SameForm.kind_eq {s r : Symbol} (h : s.SameForm r) : s.kind = r.kind := by
  have hKind := congrArg Level.kind h.level
  exact hKind

theorem SameForm.name_eq {s r : Symbol} (h : s.SameForm r) : s.name = r.name := by
  have hName := congrArg Level.name h.level
  exact hName

end Symbol

/-! ## Tables that mirror each other -/

namespace SymbolTable

/-- Whether the types that correspond have one form and are nested in types that correspond. The two
tables need not have the same keys or the same pieces. -/
structure Mirrors (S : Symbol → Symbol → Prop) (t u : SymbolTable) : Prop where
  nests : Nests S t u
  form : ∀ s r, S s r → s.SameForm r

namespace Mirrors

variable {S : Symbol → Symbol → Prop} {t u : SymbolTable} {s r : Symbol}

theorem nestedName_eq (h : Mirrors S t u) (hsr : S s r) : t.nestedName s = u.nestedName r := by
  rw [nestedName, nestedName,
    map_eq_map_of_forall₂ (h.nests.forall₂_chain hsr) fun a b hab => (h.form a b hab).name_eq]

theorem namespace?_eq (h : Mirrors S t u) (hsr : S s r) : t.namespace? s = u.namespace? r :=
  (h.form _ _ (h.nests.rel_outermost hsr)).inNamespace

theorem messageArguments_eq (h : Mirrors S t u) (hsr : S s r) :
    t.messageArguments s = u.messageArguments r := by
  rw [messageArguments, messageArguments, h.namespace?_eq hsr, h.nestedName_eq hsr]

theorem isPublic_eq (h : Mirrors S t u) (hsr : S s r) : t.isPublic s = u.isPublic r := by
  have hDefault : t.defaultAccessibility s = u.defaultAccessibility r := by
    have hOuter := h.nests s r hsr
    rw [defaultAccessibility, defaultAccessibility]
    generalize t.enclosing? s = outer at hOuter
    generalize u.enclosing? r = outer' at hOuter
    cases hOuter with
    | none => rfl
    | some hSame => simp only [(h.form _ _ hSame).kind_eq]
  rw [isPublic, isPublic, accessibility, accessibility, hDefault]
  exact congrArg (fun access => decide (Option.getD access _ = _)) (h.form s r hsr).access

/-- The first condition that fails on a type fails on the one it corresponds to, with the same
diagnostic. -/
theorem violation?_eq (h : Mirrors S t u) (hsr : S s r) : t.violation? s = u.violation? r := by
  have hForm := h.form s r hsr
  have hAncestors := h.nests.forall₂_ancestors hsr
  -- the conditions on the type itself look at one piece each
  have hUnresolved : ∀ arguments : MessageArguments,
      (s.pieces.find? (!·.head.isNamedType)).map (fun p => Diagnostic.report .unknown p.location
        (arguments.withDetail p.head.symbol)) =
      (r.pieces.find? (!·.head.isNamedType)).map (fun p => Diagnostic.report .unknown p.location
        (arguments.withDetail p.head.symbol)) := by
    intro arguments
    have hPlace := congrArg (Option.map fun place => Diagnostic.report .unknown place.1
      (arguments.withDetail place.2)) hForm.unresolved
    rw [Symbol.unresolved?, Symbol.unresolved?, Option.map_map, Option.map_map] at hPlace
    exact hPlace
  have hStatic : ∀ arguments : MessageArguments,
      (s.pieces.find? (·.head.hasModifier "static")).map (fun p => Diagnostic.report .staticType
        p.location arguments) =
      (r.pieces.find? (·.head.hasModifier "static")).map (fun p => Diagnostic.report .staticType
        p.location arguments) := by
    intro arguments
    have hPlace := congrArg (Option.map (Diagnostic.report .staticType · arguments)) hForm.static
    rw [Symbol.staticPlace?, Symbol.staticPlace?, Option.map_map, Option.map_map] at hPlace
    exact hPlace
  have hClosed : ∀ (id : DiagnosticId) (arguments : MessageArguments) {a b : Symbol},
      a.SameForm b →
      a.nonPartialPiece?.map (fun p => Diagnostic.report id p.location arguments) =
        b.nonPartialPiece?.map (fun p => Diagnostic.report id p.location arguments) := by
    intro id arguments a b hab
    have hPlace := congrArg (Option.map (Diagnostic.report id · arguments)) hab.nonPartial
    rw [Symbol.nonPartialPlace?, Symbol.nonPartialPlace?, Option.map_map, Option.map_map] at hPlace
    exact hPlace
  -- the conditions on the types around it go through them from the outermost one
  have hHiddenAround : ∀ arguments : MessageArguments,
      ((t.ancestors s).find? (!t.isPublic ·)).map (fun outer => Diagnostic.report
        .notPublicContainingType outer.first.location
        (arguments.withContaining (t.nestedName outer))) =
      ((u.ancestors r).find? (!u.isPublic ·)).map (fun outer => Diagnostic.report
        .notPublicContainingType outer.first.location
        (arguments.withContaining (u.nestedName outer))) := fun _ =>
    map_find?_eq_of_forall₂ hAncestors (fun a b hab => by rw [h.isPublic_eq hab]) fun a b hab => by
      rw [h.nestedName_eq hab, (h.form a b hab).location]
  have hClosedAround : ∀ arguments : MessageArguments,
      ((t.ancestors s).findSome? fun outer => outer.nonPartialPiece?.map fun p =>
        Diagnostic.report .notPartialContainingType p.location
          (arguments.withContaining (t.nestedName outer))) =
      (u.ancestors r).findSome? fun outer => outer.nonPartialPiece?.map fun p =>
        Diagnostic.report .notPartialContainingType p.location
          (arguments.withContaining (u.nestedName outer)) := fun _ =>
    findSome?_eq_of_forall₂ hAncestors fun a b hab => by
      rw [h.nestedName_eq hab]
      exact hClosed _ _ (h.form a b hab)
  simp only [violation?, h.messageArguments_eq hsr, hForm.kind_eq, hForm.location,
    h.isPublic_eq hsr, hUnresolved, hStatic, hHiddenAround, hClosed _ _ hForm, hClosedAround]

/-- **The conditions on types that correspond come out the same.** -/
theorem eligible_eq (h : Mirrors S t u) (hsr : S s r) : t.eligible s = u.eligible r := by
  rw [eligible, eligible, h.violation?_eq hsr, h.messageArguments_eq hsr, (h.form s r hsr).mode]

/-- **Types that correspond have the same plan.** -/
theorem plan_eq (h : Mirrors S t u) (hsr : S s r) (capability : String) (mode : Mode)
    (constraints : List Constraint) :
    Plan.ofSymbol t s capability mode constraints =
      Plan.ofSymbol u r capability mode constraints := by
  rw [Plan.ofSymbol, Plan.ofSymbol, h.namespace?_eq hsr,
    map_eq_map_of_forall₂ (h.nests.forall₂_chain hsr) fun a b hab => (h.form a b hab).level]

/-- Types that correspond give the same for the same annotations. What is made of annotations
depends on the table by names, by the plan and by the place of the first piece only. -/
theorem ofExtraction_eq (h : Mirrors S t u) (hsr : S s r) (config : Config) (mode : Mode) :
    CandidateResult.ofExtraction config t s mode =
      CandidateResult.ofExtraction config u r mode := by
  funext e
  simp only [CandidateResult.ofExtraction, h.messageArguments_eq hsr, h.plan_eq hsr,
    (h.form s r hsr).location]

/-- Types that correspond give the same if the same is found on them. -/
theorem ofCandidate_eq [Arithmetic] (h : Mirrors S t u) (hsr : S s r) (config : Config)
    (hFound : Extraction.ofSymbol config.symbols s = Extraction.ofSymbol config.symbols r) :
    CandidateResult.ofCandidate config t s = CandidateResult.ofCandidate config u r := by
  rw [CandidateResult.ofCandidate, CandidateResult.ofCandidate, h.eligible_eq hsr, hFound]
  simp only [h.ofExtraction_eq hsr]

end Mirrors

end SymbolTable

/-- **Two programs give the same output** if their tables mirror each other and the same is found on
candidates that correspond. -/
theorem generate_eq_of_mirrors [Arithmetic] {S : Symbol → Symbol → Prop} {config : Config}
    {c d : Compilation} (h : SymbolTable.Mirrors S (.ofCompilation c) (.ofCompilation d))
    (hCandidates : List.Forall₂ S ((SymbolTable.ofCompilation c).candidates config.symbols)
      ((SymbolTable.ofCompilation d).candidates config.symbols))
    (hFound : ∀ s r, S s r →
      Extraction.ofSymbol config.symbols s = Extraction.ofSymbol config.symbols r) :
    generate config c = generate config d := by
  rw [generate, generate]
  exact congrArg (Except.map PassOutput.ofResults) (mapM_eq_mapM_of_forall₂ hCandidates
    fun s r hsr => h.ofCandidate_eq hsr config (hFound s r hsr))

end ValidatorGen

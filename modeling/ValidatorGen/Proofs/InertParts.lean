import ValidatorGen.Proofs.Matching

/-!
# Parts that carry no constraint

A program says more about its types than a pass reads: they have members other than fields and
properties, and their members have attributes that ask for no constraint. A program is *enriched*
when such members are put in between the members of its declarations, and such attributes in between
the attributes of its members, at any depth and in any number. A pass gives the same output as
before: nothing that it looks for is found by counting what stands before it.

Putting in between is one relation on lists, with a parameter for what may be put in and one for how
the others are related. It is used twice, for attributes in a member and for members in a
declaration. What a pass does with these lists is always a `filterMap`, which passes over everything
that is put in; positions and neighbours are never looked at.

Main results:

* `Enriched.rel_filterMap` — what looks at items one by one and passes over those put in between
  finds the same;
* `TypeHead.Enriched.forall₂_findings` — enriched members are annotated with the same;
* `generate_eq_of_enriched` — what carries no constraint makes no difference.
-/

namespace ValidatorGen

open Number (Arithmetic)

/-! ## Lists with items put in between -/

/-- A list with items that satisfy `P` put in between the items of another one, which are related
one by one. -/
inductive Enriched {α : Type} (R : α → α → Prop) (P : α → Prop) : List α → List α → Prop
  /-- Nothing is left of either list. -/
  | nil : Enriched R P [] []
  /-- The next item corresponds to one of the first list. -/
  | keep {a b : α} {as bs : List α} : R a b → Enriched R P as bs → Enriched R P (a :: as) (b :: bs)
  /-- The next item is put in. -/
  | insert {b : α} {as bs : List α} : P b → Enriched R P as bs → Enriched R P as (b :: bs)

namespace Enriched

variable {α β : Type} {R : α → α → Prop} {P : α → Prop} {as bs : List α}

/-- **What passes over the items put in between finds the same**, up to a relation of its own. -/
theorem rel_filterMap {S : β → β → Prop} {f g : α → Option β} (h : Enriched R P as bs)
    (hKept : ∀ a b, R a b → Option.Rel S (f a) (g b)) (hPut : ∀ b, P b → g b = none) :
    List.Forall₂ S (as.filterMap f) (bs.filterMap g) := by
  induction h with
  | nil => exact .nil
  | @keep a b _ _ hab _ ih =>
    have hFound := hKept a b hab
    rw [List.filterMap_cons, List.filterMap_cons]
    -- a pair that was kept is found on both sides or on none
    generalize f a = x at hFound
    generalize g b = y at hFound
    cases hFound with
    | none => exact ih
    | some hS => exact .cons hS ih
  | insert hb _ ih =>
    rw [List.filterMap_cons, hPut _ hb]
    exact ih

/-- A filter that none of the items put in between pass leaves lists that are related one by one. -/
theorem forall₂_filter {p : α → Bool} (h : Enriched R P as bs)
    (hKept : ∀ a b, R a b → p a = p b) (hPut : ∀ b, P b → p b = false) :
    List.Forall₂ R (as.filter p) (bs.filter p) := by
  -- a filter keeps an item as it is or finds nothing in it
  rw [← List.filterMap_eq_filter]
  refine h.rel_filterMap ?_ ?_
  · intro a b hab
    rw [Option.guard, Option.guard, hKept a b hab]
    by_cases hb : p b = true
    · rw [if_pos hb, if_pos hb]
      exact .some hab
    · rw [if_neg hb, if_neg hb]
      exact .none
  · intro b hb
    rw [Option.guard, hPut b hb]
    rfl

end Enriched

/-! ## Programs -/

/-- Whether an attribute has none of the three names that ask for a constraint, the alias of the
global namespace in front of a name being left out of account. -/
def Attribute.IsForeign (known : KnownSymbols) (a : Attribute) : Prop :=
  ∀ name ∈ [known.greaterThan, known.lessThan, known.between], bareName a.name ≠ bareName name

/-- Whether a member is neither a field nor a property and does not have the name of the generated
method. A member with that name would compete with the method, and a field or property might be
constrained. -/
def Member.IsInert (m : Member) : Prop :=
  m.kind ≠ .field ∧ m.kind ≠ .property ∧ m.name ≠ validateName

section Programs

variable (known : KnownSymbols)

/-- A member with attributes put in between that ask for no constraint. -/
def Member.Enriched (m n : Member) : Prop :=
  ∃ attributes, ValidatorGen.Enriched Eq (Attribute.IsForeign known) m.attributes attributes ∧
    n = { m with attributes }

/-- A head with members put in between that carry no constraint, and such attributes in between
those of its other members. -/
def TypeHead.Enriched (a b : TypeHead) : Prop :=
  ∃ members, ValidatorGen.Enriched (Member.Enriched known) Member.IsInert a.members members ∧
    b = { a with members }

/-- A program with what carries no constraint put in between, in declarations at any depth. -/
def Compilation.Enriched (c d : Compilation) : Prop :=
  c.Matches (TypeHead.Enriched known) d

end Programs

variable {known : KnownSymbols}

/-! ## Annotations -/

/-- An attribute without one of the names asks for nothing. -/
theorem Attribute.IsForeign.ofName?_eq_none {a : Attribute} (h : a.IsForeign known) :
    ConstraintKind.ofName? known a.name = none := by
  have hName : ∀ name ∈ [known.greaterThan, known.lessThan, known.between],
      sameSymbol name a.name = false := by
    intro name hMem
    rw [sameSymbol, beq_eq_false_iff_ne]
    exact (h name hMem).symm
  simp only [List.forall_mem_cons] at hName
  obtain ⟨hGreater, hLess, hBetween, -⟩ := hName
  simp only [ConstraintKind.ofName?, hGreater, hLess, hBetween, Bool.false_eq_true, if_false]

namespace Member

theorem IsInert.isData_eq_false {m : Member} (h : m.IsInert) : m.kind.isData = false := by
  obtain ⟨hField, hProperty, -⟩ := h
  cases hKind : m.kind with
  | field => exact absurd hKind hField
  | property => exact absurd hKind hProperty
  | _ => rfl

theorem IsInert.isRival_eq_false {m : Member} (h : m.IsInert) : m.isRival = false := by
  obtain ⟨-, -, hName⟩ := h
  simp only [isRival, hName, decide_false, Bool.false_and]

variable {m n : Member}

/-- Only its attributes tell an enriched member from the member. -/
theorem Enriched.bare_eq (h : m.Enriched known n) : m.bare = n.bare := by
  obtain ⟨attributes, -, rfl⟩ := h
  rfl

/-- Enriched members are annotated with the same. -/
theorem Enriched.forall₂_findings [Arithmetic] (h : m.Enriched known n) (path : String) :
    List.Forall₂ Finding.SameSense (Finding.ofMember known path m)
      (Finding.ofMember known path n) := by
  obtain ⟨attributes, hAttributes, rfl⟩ := h
  unfold Finding.ofMember
  refine hAttributes.rel_filterMap ?_ ?_
  · -- an attribute of the member is a finding of the same kind on both
    rintro a _ rfl
    cases ConstraintKind.ofName? known a.name with
    | none => exact .none
    | some kind => exact .some ⟨rfl, rfl, rfl, rfl⟩
  · intro b hb
    rw [hb.ofName?_eq_none]
    rfl

end Member

/-! ## Heads -/

namespace TypeHead

variable {a b : TypeHead}

theorem Enriched.shape_eq (h : a.Enriched known b) : a.shape = b.shape := by
  obtain ⟨members, hMembers, rfl⟩ := h
  -- the members that compete with the generated method are those of before
  have hRivals := hMembers.forall₂_filter (p := Member.isRival)
    (fun m n hmn => by rw [← m.isRival_bare, hmn.bare_eq, n.isRival_bare])
    fun n hn => hn.isRival_eq_false
  have hBare : (a.members.filter Member.isRival).map Member.bare =
      (members.filter Member.isRival).map Member.bare :=
    map_eq_map_of_forall₂ hRivals fun m n hmn => hmn.bare_eq
  unfold shape
  rw [hBare]

/-- **Enriched members are annotated with the same**, and members put in between with nothing. -/
theorem Enriched.forall₂_findings [Arithmetic] (h : a.Enriched known b) (path : String) :
    List.Forall₂ Finding.SameSense (a.findings known path) (b.findings known path) := by
  obtain ⟨members, hMembers, rfl⟩ := h
  have hData : List.Forall₂ (Member.Enriched known) (a.members.filter (·.kind.isData))
      (members.filter (·.kind.isData)) := by
    refine hMembers.forall₂_filter (fun m n hmn => ?_) fun n hn => hn.isData_eq_false
    obtain ⟨attributes, -, rfl⟩ := hmn
    rfl
  exact List.rel_flatMap hData fun m n hmn => hmn.forall₂_findings path

end TypeHead

/-! ## Passes -/

theorem Config.preserves_enriched [Arithmetic] (config : Config) :
    config.Preserves config (TypeHead.Enriched config.symbols) where
  sameOutput := ⟨rfl, rfl, rfl⟩
  shape := fun _ _ hab => hab.shape_eq
  asks := by
    -- marker and capability stand in what heads have in common
    rintro a _ ⟨members, -, rfl⟩
    rfl
  findings := fun _ _ hab path => hab.forall₂_findings path

/-- **What carries no constraint makes no difference**: a pass gives the same output when members
that are neither fields nor properties nor named as the generated method, and attributes of members
that ask for no constraint, are put in anywhere. The diagnostics stay too, since their places are
those of the declarations and members that were there before. -/
theorem generate_eq_of_enriched [Arithmetic] (config : Config) {c d : Compilation}
    (h : c.Enriched config.symbols d) : generate config d = generate config c :=
  (generate_eq_of_matches config.preserves_enriched h).symm

/-- A class in a class, with members before and after a property that has to be greater than two,
and with attributes before that constraint. -/
def Compilation.cab (before after : List Member) (attributes : List Attribute) : Compilation :=
  let seats : Member := { (default : Member) with
    kind := .property
    name := "Seats"
    attributes := attributes ++ [⟨KnownSymbols.standard.greaterThan,
      [⟨"int", .ofUInt32 2⟩], []⟩] }
  let cab : TypeHead := { (default : TypeHead) with
    name := "Cab"
    modifiers := ["public", "partial"]
    attributes := [⟨KnownSymbols.standard.marker, [], []⟩]
    members := before ++ seats :: after
    symbol := TypeHead.namedType }
  let fleet : TypeHead := { (default : TypeHead) with
    name := "Fleet"
    modifiers := ["public", "partial"]
    symbol := TypeHead.namedType }
  ⟨[⟨"Fleet.cs", [⟨fleet, [⟨cab, []⟩]⟩]⟩]⟩

/-- A constructor with a constraint on it is put in before the property, an event after it, and an
attribute before its constraint. -/
theorem generate_eq_of_enriched_cab :
    let limit : Attribute := ⟨KnownSymbols.standard.lessThan,
      [⟨"int", .ofUInt32 9⟩], []⟩
    let opening : Member := { (default : Member) with
      kind := .constructor, name := "Cab", attributes := [limit], span := ⟨3, 5⟩ }
    let called : Member := { (default : Member) with kind := .event, name := "Called" }
    let note : Attribute := ⟨"global::System.ObsoleteAttribute", [], []⟩
    (Compilation.cab [] [] []).Enriched KnownSymbols.standard (.cab [opening] [called] [note]) ∧
      generate .standard (.cab [opening] [called] [note]) = generate .standard (.cab [] [] []) := by
  intro limit opening called note
  have hNote : note.IsForeign KnownSymbols.standard := by
    unfold Attribute.IsForeign
    decide
  have hOpening : opening.IsInert := ⟨by decide, by decide, by decide⟩
  have hCalled : called.IsInert := ⟨by decide, by decide, by decide⟩
  have hCab : (Compilation.cab [] [] []).Enriched KnownSymbols.standard
      (.cab [opening] [called] [note]) := by
    -- the class around it stays as it is
    refine .cons ⟨rfl, .cons (.mk ⟨[], .nil, rfl⟩ (.cons (.mk ⟨_, ?_, rfl⟩ .nil) .nil)) .nil⟩ .nil
    refine .insert hOpening (.keep ⟨_, ?_, rfl⟩ (.insert hCalled .nil))
    exact .insert hNote (.keep rfl .nil)
  exact ⟨hCab, generate_eq_of_enriched .standard hCab⟩

end ValidatorGen

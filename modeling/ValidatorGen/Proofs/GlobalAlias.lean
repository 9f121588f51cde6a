import ValidatorGen.Proofs.Matching

/-!
# The alias of the global namespace

Names may be written with the alias `global::` in front or without it. A program and a configuration
are *aliased* when the alias is put before some names in them that do not start with it: names of
attributes, bases and types of arguments in the program, and the names that the configuration says
to look for. A pass gives the same output as before.

Aliasing is a relation between names, lifted to arguments, attributes, members and declarations, so
any choice of occurrences is covered and not only the one in which all are changed. The code
compares names without the alias, and everything above the comparison follows by going along the
lists.

Main results:

* `Aliased.bareName_eq` — a name with the alias is the same name;
* `TypeHead.Aliased.forall₂_findings` — aliased annotations ask for the same;
* `generate_eq_of_aliased` — aliases make no difference.
-/

namespace ValidatorGen

open Number (Arithmetic)

/-! ## Names -/

/-- Whether a name starts with the alias. -/
def HasAlias (name : String) : Prop :=
  globalAlias <+: name.toList

instance (name : String) : Decidable (HasAlias name) :=
  inferInstanceAs (Decidable (_ <+: _))

/-- Whether a name is left as it is, or is without the alias and the alias is put before it. The
alias is put before names that do not start with it, so that it is never doubled. -/
def Aliased (name name' : String) : Prop :=
  name' = name ∨ ¬ HasAlias name ∧ name' = "global::" ++ name

theorem Aliased.refl (name : String) : Aliased name name :=
  Or.inl rfl

theorem bareName_of_not_hasAlias {name : String} (h : ¬ HasAlias name) : bareName name = name := by
  unfold bareName
  rw [if_neg (by rwa [List.isPrefixOf_iff_prefix])]

theorem bareName_alias_append (name : String) : bareName ("global::" ++ name) = name := by
  have hText : ("global::" ++ name).toList = globalAlias ++ name.toList := by
    rw [String.toList_append]
    rfl
  unfold bareName
  rw [hText, if_pos (List.isPrefixOf_iff_prefix.2 (List.prefix_append _ _)), List.drop_left,
    String.ofList_toList]

/-- **A name with the alias is the same name.** -/
theorem Aliased.bareName_eq {name name' : String} (h : Aliased name name') :
    bareName name = bareName name' := by
  obtain rfl | ⟨hPlain, rfl⟩ := h
  · rfl
  · rw [bareName_alias_append, bareName_of_not_hasAlias hPlain]

theorem sameSymbol_congr {expected expected' actual actual' : String}
    (hExpected : bareName expected = bareName expected')
    (hActual : bareName actual = bareName actual') :
    sameSymbol expected actual = sameSymbol expected' actual' := by
  unfold sameSymbol
  rw [hExpected, hActual]

/-- The names to look for with the alias before some of them. -/
structure KnownSymbols.Aliased (k l : KnownSymbols) : Prop where
  marker : ValidatorGen.Aliased k.marker l.marker
  capability : ValidatorGen.Aliased k.capability l.capability
  greaterThan : ValidatorGen.Aliased k.greaterThan l.greaterThan
  lessThan : ValidatorGen.Aliased k.lessThan l.lessThan
  between : ValidatorGen.Aliased k.between l.between

/-- A configuration with the alias before some of the names to look for. -/
def Config.Aliased (k l : Config) : Prop :=
  ∃ symbols, k.symbols.Aliased symbols ∧ l = { k with symbols }

/-- An argument with the alias before the name of its type or not. -/
def Argument.Aliased (a b : Argument) : Prop :=
  ∃ kind, ValidatorGen.Aliased a.kind kind ∧ b = { a with kind }

/-- An attribute with the alias before some of the names in it. -/
def Attribute.Aliased (a b : Attribute) : Prop :=
  ∃ name arguments, ValidatorGen.Aliased a.name name ∧
    List.Forall₂ Argument.Aliased a.arguments arguments ∧ b = { a with name, arguments }

/-- A member with the alias before some of the names in its attributes. -/
def Member.Aliased (m n : Member) : Prop :=
  ∃ attributes, List.Forall₂ Attribute.Aliased m.attributes attributes ∧ n = { m with attributes }

/-- A head with the alias before some of the names in its attributes, in its bases and in the
attributes of its members. -/
def TypeHead.Aliased (a b : TypeHead) : Prop :=
  ∃ attributes baseList members, List.Forall₂ Attribute.Aliased a.attributes attributes ∧
    List.Forall₂ ValidatorGen.Aliased a.baseList baseList ∧
    List.Forall₂ Member.Aliased a.members members ∧
    b = { a with attributes, baseList, members }

/-- A program with the alias before some of the names in it. -/
def Compilation.Aliased (c d : Compilation) : Prop :=
  c.Matches TypeHead.Aliased d

/-! ## Annotations -/

theorem OperandKind.ofName?_congr {name name' : String} (h : bareName name = bareName name') :
    ofName? name = ofName? name' := by
  unfold ofName?
  rw [h]

theorem ConstraintKind.ofName?_eq_of_aliased {k l : KnownSymbols} (hSymbols : k.Aliased l)
    {name name' : String} (hName : ValidatorGen.Aliased name name') :
    ofName? k name = ofName? l name' := by
  unfold ofName?
  rw [sameSymbol_congr hSymbols.greaterThan.bareName_eq hName.bareName_eq,
    sameSymbol_congr hSymbols.lessThan.bareName_eq hName.bareName_eq,
    sameSymbol_congr hSymbols.between.bareName_eq hName.bareName_eq]

theorem Argument.Aliased.operand?_eq [Arithmetic] {a b : Argument} (h : a.Aliased b) :
    a.operand? = b.operand? := by
  obtain ⟨kind, hKind, rfl⟩ := h
  unfold operand?
  rw [OperandKind.ofName?_congr hKind.bareName_eq]

namespace Attribute

/-- Each argument gives an operand of its own. -/
theorem operand?_eq_getD [Arithmetic] (a : Attribute) (index : Nat) :
    a.operand? index = (a.arguments.map Argument.operand?)[index]?.getD (.ok none) := by
  unfold operand?
  rw [List.getElem?_map]
  cases a.arguments[index]? <;> rfl

theorem Aliased.operand?_eq [Arithmetic] {a b : Attribute} (h : a.Aliased b) (index : Nat) :
    a.operand? index = b.operand? index := by
  obtain ⟨name, arguments, -, hArguments, rfl⟩ := h
  rw [operand?_eq_getD, operand?_eq_getD,
    map_eq_map_of_forall₂ hArguments fun a b hab => hab.operand?_eq]

theorem Aliased.constraint?_eq [Arithmetic] {a b : Attribute} (h : a.Aliased b)
    (kind : ConstraintKind)
    (member : String) : a.constraint? kind member = b.constraint? kind member := by
  have hInclusive : a.isInclusive = b.isInclusive := by
    obtain ⟨name, arguments, -, -, rfl⟩ := h
    rfl
  unfold constraint?
  rw [h.operand?_eq 0, h.operand?_eq 1, hInclusive]

end Attribute

/-- Aliased members are annotated with the same. -/
theorem Member.Aliased.forall₂_findings [Arithmetic] {k l : KnownSymbols} (hSymbols : k.Aliased l)
    {m n : Member} (h : m.Aliased n) (path : String) :
    List.Forall₂ Finding.SameSense (Finding.ofMember k path m) (Finding.ofMember l path n) := by
  obtain ⟨attributes, hAttributes, rfl⟩ := h
  -- each attribute of one member is a finding exactly if that of the other is, and of one kind
  unfold Finding.ofMember
  refine List.rel_filterMap ?_ hAttributes
  intro a b hab
  have hName : ValidatorGen.Aliased a.name b.name := by
    obtain ⟨name, arguments, hName, -, rfl⟩ := hab
    exact hName
  show Option.Rel Finding.SameSense ((ConstraintKind.ofName? k a.name).map _)
    ((ConstraintKind.ofName? l b.name).map _)
  rw [ConstraintKind.ofName?_eq_of_aliased hSymbols hName]
  cases ConstraintKind.ofName? l b.name with
  | none => exact .none
  | some kind =>
    exact .some
      { path := rfl
        member := rfl
        span := rfl
        constraint := hab.constraint?_eq kind m.name }

/-! ## Heads -/

namespace TypeHead

variable {a b : TypeHead}

theorem Aliased.shape_eq (h : a.Aliased b) : a.shape = b.shape := by
  obtain ⟨attributes, baseList, members, -, -, hMembers, rfl⟩ := h
  -- a shape has no attributes and no bases, so only members are left to look at
  have hBare : List.Forall₂ (fun m n => m.bare = n.bare) a.members members := by
    refine hMembers.imp fun m n hmn => ?_
    obtain ⟨attributes, -, rfl⟩ := hmn
    rfl
  unfold shape
  rw [Member.map_bare_rivals_eq hBare]

theorem Aliased.asksForValidator_eq {k l : KnownSymbols} (hSymbols : k.Aliased l)
    (h : a.Aliased b) : a.asksForValidator k = b.asksForValidator l := by
  obtain ⟨attributes, baseList, members, hAttributes, hBases, -, rfl⟩ := h
  have hMarker : a.attributes.any (fun x => sameSymbol k.marker x.name) =
      attributes.any fun x => sameSymbol l.marker x.name := by
    refine any_eq_any_of_forall₂ hAttributes fun x y hxy => ?_
    obtain ⟨name, arguments, hName, -, rfl⟩ := hxy
    exact sameSymbol_congr hSymbols.marker.bareName_eq hName.bareName_eq
  have hCapability : a.baseList.any (sameSymbol k.capability) =
      baseList.any (sameSymbol l.capability) :=
    any_eq_any_of_forall₂ hBases fun x y hxy =>
      sameSymbol_congr hSymbols.capability.bareName_eq hxy.bareName_eq
  unfold asksForValidator
  rw [hMarker, hCapability]

/-- **Aliased annotations ask for the same.** -/
theorem Aliased.forall₂_findings [Arithmetic] {k l : KnownSymbols} (hSymbols : k.Aliased l)
    (h : a.Aliased b)
    (path : String) : List.Forall₂ Finding.SameSense (a.findings k path) (b.findings l path) := by
  obtain ⟨attributes, baseList, members, -, -, hMembers, rfl⟩ := h
  have hData : List.Forall₂ Member.Aliased (a.members.filter (·.kind.isData))
      (members.filter (·.kind.isData)) := by
    refine forall₂_filter hMembers fun m n hmn => ?_
    obtain ⟨attributes, -, rfl⟩ := hmn
    rfl
  exact List.rel_flatMap hData fun m n hmn => hmn.forall₂_findings hSymbols path

end TypeHead

/-! ## Passes -/

theorem Config.Aliased.preserves [Arithmetic] {config config' : Config}
    (h : config.Aliased config') :
    config.Preserves config' TypeHead.Aliased := by
  obtain ⟨symbols, hSymbols, rfl⟩ := h
  exact
    { sameOutput := ⟨hSymbols.capability.bareName_eq, rfl, rfl⟩
      shape := fun a b hab => hab.shape_eq
      asks := fun a b hab => hab.asksForValidator_eq hSymbols
      findings := fun a b hab path => hab.forall₂_findings hSymbols path }

/-- **Aliases make no difference**: a pass gives the same output when the alias is put before names
in the program and in the configuration. The program and the configuration may be changed
independently of each other. -/
theorem generate_eq_of_aliased [Arithmetic] {config config' : Config}
    (hConfig : config.Aliased config')
    {c c' : Compilation} (h : c.Aliased c') : generate config' c' = generate config c :=
  (generate_eq_of_matches hConfig.preserves h).symm

/-- A class with a marker, two bases, and an argument whose type has a name. -/
def Compilation.car (marker base kind : String) : Compilation :=
  let wheels : Member := { (default : Member) with
    kind := .property
    name := "Wheels"
    attributes := [⟨KnownSymbols.standard.greaterThan,
      [⟨kind, .number (.integer 2 (by decide))⟩], []⟩] }
  let head : TypeHead := { (default : TypeHead) with
    name := "Car"
    modifiers := ["public", "partial"]
    attributes := [⟨marker, [], []⟩]
    baseList := ["Vehicle", base]
    members := [wheels]
    symbol := TypeHead.namedType }
  ⟨[⟨"Car.cs", [⟨head, []⟩]⟩]⟩

/-- The alias is put before the marker, one of the bases and the type of the argument, and in the
configuration before the capability. -/
theorem generate_eq_of_aliased_car :
    let marker := KnownSymbols.standard.marker
    let symbols :=
      { KnownSymbols.standard with capability := "global::FastValidate.IFastValidatable" }
    let config := { Config.standard with symbols }
    Config.standard.Aliased config ∧
      (Compilation.car marker "Depot.IMovable" "int").Aliased
        (.car ("global::" ++ marker) "global::Depot.IMovable" "global::int") ∧
      generate config (.car ("global::" ++ marker) "global::Depot.IMovable" "global::int") =
        generate .standard (.car marker "Depot.IMovable" "int") := by
  intro marker symbols config
  have hConfig : Config.standard.Aliased config := by
    refine ⟨symbols, ⟨.refl _, ?_, .refl _, .refl _, .refl _⟩, rfl⟩
    exact Or.inr ⟨by decide, by decide⟩
  have hMarker : Attribute.Aliased ⟨marker, [], []⟩ ⟨"global::" ++ marker, [], []⟩ :=
    ⟨_, [], Or.inr ⟨by decide, rfl⟩, .nil, rfl⟩
  have hBases : List.Forall₂ Aliased ["Vehicle", "Depot.IMovable"]
      ["Vehicle", "global::Depot.IMovable"] :=
    .cons (.refl _) (.cons (Or.inr ⟨by decide, by decide⟩) .nil)
  have hKind : Argument.Aliased ⟨"int", .number (.integer 2 (by decide))⟩
      ⟨"global::int", .number (.integer 2 (by decide))⟩ :=
    ⟨_, Or.inr ⟨by decide, by decide⟩, rfl⟩
  have hCar : (Compilation.car marker "Depot.IMovable" "int").Aliased
      (.car ("global::" ++ marker) "global::Depot.IMovable" "global::int") := by
    refine .cons ⟨rfl, .cons (.mk ⟨_, _, _, .cons hMarker .nil, hBases, .cons ?_ .nil, rfl⟩ .nil)
      .nil⟩ .nil
    exact ⟨_, .cons ⟨_, _, .refl _, .cons hKind .nil, rfl⟩ .nil, rfl⟩
  exact ⟨hConfig, hCar, generate_eq_of_aliased hConfig hCar⟩

end ValidatorGen

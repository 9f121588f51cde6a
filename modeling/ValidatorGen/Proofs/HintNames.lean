import ValidatorGen.Proofs.Conservation
import ValidatorGen.Proofs.FirstPieces
import ValidatorGen.Proofs.LiteralText
import ValidatorGen.Proofs.WrittenFiles

/-!
# The names of generated files

A generated file is named after its type: the namespace and the types from the outermost one down to
the type itself, joined by points, with type parameters in braces. From such a name all parts can be
read back, but not how many of them are the namespace. So two types ask for the same file if the
namespace of one is that of the other continued by the names of types around the other: `Box` in the
namespace `Depot`, and `Box` in a type `Depot` of its own. This is the only case.

A name is read back in three steps. At the points it falls into parts; at its first brace a part
falls into a name and type parameters; and between commas the parameters stand one by one. Each step
needs that the marks of that step do not occur inside names, which is what `IsIdentifier` says. What
cannot be read back is where the namespace ends, and `PosesAs` is exactly this: the same parts, cut
at another place.

Main results:

* `Plan.splitOn_qualified` — the parts of a name are read back at the points;
* `Plan.hintName_eq_iff` — plans with the same name have the same parts;
* `Plan.namePath_eq_iff` — plans with the same parts have the same namespace and levels, or one
  poses as the other;
* `hintNames_nodup_iff` — a pass gives all files different names if and only if no type poses as
  another one, and then each file holds its own source.
-/

namespace ValidatorGen

open Number (Arithmetic)

/-! ## Identifiers -/

/-- The marks with which names of files and keys are made, and blanks. -/
def isMark (c : Char) : Bool :=
  ['.', ',', '\x7b', '\x7d', '`', '+', ':', '/'].contains c || Text.isBlank c

/-- A text without marks. -/
def IsIdentifier (text : String) : Prop :=
  ∀ c ∈ text.toList, isMark c = false

instance (text : String) : Decidable (IsIdentifier text) :=
  decidable_of_iff (text.toList.all (!isMark ·) = true) (by simp [IsIdentifier])

theorem IsIdentifier.notMem {text : String} (h : IsIdentifier text) {c : Char}
    (hMark : isMark c = true) : c ∉ text.toList := by
  intro hc
  rw [h c hc] at hMark
  cases hMark

/-- The names between the points of a namespace. -/
def namespaceParts : Option String → List String
  | none => []
  | some name => (name.toList.splitOn '.').map String.ofList

theorem map_toList_namespaceParts (name : String) :
    (namespaceParts (some name)).map String.toList = name.toList.splitOn '.' := by
  unfold namespaceParts
  rw [List.map_map]
  simp [Function.comp_def]

/-- A namespace is told by its parts; without a namespace there are none. -/
theorem namespaceParts_injective : Function.Injective namespaceParts := by
  -- Even the empty text has one part, so the parts tell whether there is a namespace at all.
  have hNonempty : ∀ name, namespaceParts (some name) ≠ [] := by
    intro name hNil
    have hSplit := map_toList_namespaceParts name
    rw [hNil, List.map_nil] at hSplit
    exact List.splitOn_ne_nil '.' name.toList hSplit.symm
  intro a b h
  cases a with
  | none =>
    cases b with
    | none => rfl
    | some name => exact absurd h.symm (hNonempty name)
  | some name =>
    cases b with
    | none => exact absurd h (hNonempty name)
    | some other =>
      have hSplit : name.toList.splitOn '.' = other.toList.splitOn '.' := by
        rw [← map_toList_namespaceParts, ← map_toList_namespaceParts, h]
      have hText := congrArg (List.intercalate ['.']) hSplit
      rw [List.intercalate_splitOn, List.intercalate_splitOn] at hText
      rw [String.toList_injective hText]

/-! ## The parts of a name -/

namespace Level

/-- A level with its kind left aside, which no name tells. -/
def bare (l : Level) : Level :=
  { l with kind := .classType }

/-- A part of a namespace looks like a type without type parameters. -/
def ofName (name : String) : Level :=
  ⟨.classType, name, []⟩

/-- Whether the name and all type parameters of a level are identifiers. -/
def HasIdentifiers (l : Level) : Prop :=
  IsIdentifier l.name ∧ ∀ parameter ∈ l.typeParameters, IsIdentifier parameter

theorem ofName_injective : Function.Injective ofName := by
  intro a b h
  exact congrArg Level.name h

theorem toList_hint_of_eq_nil {l : Level} (h : l.typeParameters = []) :
    l.hint.toList = l.name.toList := by
  unfold hint
  rw [h]
  rfl

theorem toList_hint_of_ne_nil {l : Level} (h : l.typeParameters ≠ []) :
    l.hint.toList = l.name.toList ++ '\x7b' ::
      ([','].intercalate (l.typeParameters.map String.toList) ++ ['\x7d']) := by
  unfold hint
  rw [if_neg (by simpa using h)]
  simp only [String.toList_append, String.toList_intercalate, List.append_assoc]
  rfl

/-- **The text of a level tells its name and its type parameters.** -/
theorem bare_eq_of_hint_eq {a b : Level} (ha : a.HasIdentifiers) (hb : b.HasIdentifiers)
    (h : a.hint = b.hint) : a.bare = b.bare := by
  have hText := congrArg String.toList h
  have hBrace : ∀ {l : Level}, l.HasIdentifiers → '\x7b' ∉ l.name.toList :=
    fun hl => hl.1.notMem (by decide)
  unfold bare
  by_cases hA : a.typeParameters = []
  · by_cases hB : b.typeParameters = []
    · rw [toList_hint_of_eq_nil hA, toList_hint_of_eq_nil hB] at hText
      rw [String.toList_injective hText, hA, hB]
    · -- only one of the texts has a brace
      rw [toList_hint_of_eq_nil hA, toList_hint_of_ne_nil hB] at hText
      have hMem : '\x7b' ∈ a.name.toList := by
        rw [hText]
        exact List.mem_append_right _ List.mem_cons_self
      exact absurd hMem (hBrace ha)
  · by_cases hB : b.typeParameters = []
    · rw [toList_hint_of_ne_nil hA, toList_hint_of_eq_nil hB] at hText
      have hMem : '\x7b' ∈ b.name.toList := by
        rw [← hText]
        exact List.mem_append_right _ List.mem_cons_self
      exact absurd hMem (hBrace hb)
    · rw [toList_hint_of_ne_nil hA, toList_hint_of_ne_nil hB] at hText
      -- the name ends at the brace, and the parameters are divided by commas
      have hStop : ∀ {l : Level}, l.HasIdentifiers →
          ∀ c ∈ l.name.toList, decide (c ≠ '\x7b') = true :=
        fun hl c hc => decide_eq_true fun hSame : c = '\x7b' => hBrace hl (hSame ▸ hc)
      obtain ⟨hName, hRest⟩ := append_stop_inj (hStop ha) (hStop hb) (by simp) hText
      have hComma : ∀ {l : Level}, l.HasIdentifiers →
          ∀ part ∈ l.typeParameters.map String.toList, ',' ∉ part := by
        intro l hl part hPart
        obtain ⟨parameter, hParameter, rfl⟩ := List.mem_map.1 hPart
        exact (hl.2 parameter hParameter).notMem (by decide)
      have hParameters := congrArg (List.splitOn ',') (List.append_cancel_right hRest)
      rw [List.splitOn_intercalate ',' (hComma ha) (by simpa using hA),
        List.splitOn_intercalate ',' (hComma hb) (by simpa using hB)] at hParameters
      have hSame : a.typeParameters = b.typeParameters :=
        List.map_injective_iff.2 (fun _ _ => String.toList_injective) hParameters
      rw [String.toList_injective hName, hSame]

/-- Part by part, the texts of levels tell the levels. -/
theorem map_bare_eq_of_map_hint_eq {as bs : List Level} (ha : ∀ l ∈ as, l.HasIdentifiers)
    (hb : ∀ l ∈ bs, l.HasIdentifiers)
    (h : as.map (·.hint.toList) = bs.map (·.hint.toList)) : as.map bare = bs.map bare := by
  induction as generalizing bs with
  | nil =>
    rw [List.map_nil] at h
    rw [List.map_eq_nil_iff.1 h.symm]
  | cons a as ih =>
    cases bs with
    | nil => cases h
    | cons b bs =>
      obtain ⟨hFirst, hRest⟩ := List.cons.inj h
      have hSame : a.bare = b.bare :=
        bare_eq_of_hint_eq (ha a List.mem_cons_self) (hb b List.mem_cons_self)
          (String.toList_injective hFirst)
      have hSames := ih (fun l hl => ha l (List.mem_cons_of_mem a hl))
        (fun l hl => hb l (List.mem_cons_of_mem b hl)) hRest
      rw [List.map_cons, List.map_cons, hSame, hSames]

/-- A mark that is not used in the text of a level does not stand in it. -/
theorem notMem_hint {l : Level} (h : l.HasIdentifiers) {c : Char} (hMark : isMark c = true)
    (hOther : c ∉ [',', '\x7b', '\x7d']) : c ∉ l.hint.toList := by
  have hName := h.1.notMem hMark
  by_cases hNil : l.typeParameters = []
  · rwa [toList_hint_of_eq_nil hNil]
  · rw [toList_hint_of_ne_nil hNil]
    -- the parameters are identifiers, with commas in between that are no mark in question
    have hParameters : c ∉ [','].intercalate (l.typeParameters.map String.toList) := by
      refine notMem_intercalate (fun hc => hOther ?_) fun part hPart => ?_
      · rw [List.mem_singleton.1 hc]
        exact List.mem_cons_self
      · obtain ⟨parameter, hParameter, rfl⟩ := List.mem_map.1 hPart
        exact (h.2 parameter hParameter).notMem hMark
    simp only [List.mem_cons, List.not_mem_nil, or_false, not_or] at hOther
    simp only [List.mem_append, List.mem_cons, List.not_mem_nil, or_false, not_or]
    exact ⟨hName, hOther.2.1, hParameters, hOther.2.2⟩

end Level

namespace Plan

variable {p q : Plan}

/-- Whether all names in the name of a plan are identifiers. -/
structure HasIdentifiers (p : Plan) : Prop where
  levels_ne_nil : p.levels ≠ []
  levels : ∀ l ∈ p.levels, l.HasIdentifiers
  inNamespace : ∀ part ∈ namespaceParts p.inNamespace, IsIdentifier part

/-- The parts of the name of a plan: those of the namespace, and the levels. The parts of a
namespace are written as levels without type parameters, since in a name they look alike. -/
def namePath (p : Plan) : List Level :=
  (namespaceParts p.inNamespace).map Level.ofName ++ p.levels.map Level.bare

/-- Whether the namespace of a plan is that of another one continued by the names of outer types of
the other one, and all else is the same. What is left of both plans after the longer namespace is
the same. -/
def PosesAs (p q : Plan) : Prop :=
  ∃ outer ≠ [], namespaceParts p.inNamespace = namespaceParts q.inNamespace ++ outer ∧
    q.levels.map Level.bare = outer.map Level.ofName ++ p.levels.map Level.bare

theorem HasIdentifiers.namePath (h : p.HasIdentifiers) : ∀ l ∈ p.namePath, l.HasIdentifiers := by
  intro l hl
  rcases List.mem_append.1 hl with hl | hl
  · obtain ⟨part, hPart, rfl⟩ := List.mem_map.1 hl
    exact ⟨h.inNamespace part hPart, fun _ hParameter => absurd hParameter List.not_mem_nil⟩
  · obtain ⟨level, hLevel, rfl⟩ := List.mem_map.1 hl
    exact h.levels level hLevel

/-- **The parts of a name are read back at the points.** -/
theorem splitOn_qualified (h : p.HasIdentifiers) :
    (p.qualified Level.hint).toList.splitOn '.' = p.namePath.map (·.hint.toList) := by
  have hLevels : p.levels.map (·.hint.toList) ≠ [] := by simpa using h.levels_ne_nil
  have hPoint : ∀ text ∈ p.levels.map (·.hint.toList), '.' ∉ text := by
    intro text hText
    obtain ⟨l, hl, rfl⟩ := List.mem_map.1 hText
    exact Level.notMem_hint (h.levels l hl) (by decide) (by decide)
  have hSplit : (['.'].intercalate (p.levels.map (·.hint.toList))).splitOn '.' =
      p.levels.map (·.hint.toList) := List.splitOn_intercalate '.' hPoint hLevels
  have hBare : (p.levels.map Level.bare).map (·.hint.toList) = p.levels.map (·.hint.toList) := by
    rw [List.map_map]
    rfl
  unfold qualified namePath
  rw [String.toList_intercalate, List.map_append, List.map_append, hBare, List.map_map,
    List.map_map]
  cases hNamespace : p.inNamespace with
  | none => exact hSplit
  | some name =>
    -- the point after the namespace divides it from the levels
    obtain ⟨first, rest, hCons⟩ := List.exists_cons_of_ne_nil hLevels
    have hJoined : ['.'].intercalate (name.toList :: p.levels.map (·.hint.toList)) =
        name.toList ++ '.' :: ['.'].intercalate (p.levels.map (·.hint.toList)) := by
      rw [hCons, List.intercalate_cons_cons, List.append_assoc]
      rfl
    have hParts : (namespaceParts (some name)).map ((·.hint.toList) ∘ Level.ofName) =
        name.toList.splitOn '.' := map_toList_namespaceParts name
    rw [hParts, ← hSplit]
    exact (congrArg (List.splitOn '.') hJoined).trans
      (List.splitOnP_append_cons name.toList _ (beq_self_eq_true '.'))

theorem toList_hintName (p : Plan) :
    p.hintName.toList = (p.qualified Level.hint).toList ++ ".Validate.g.cs".toList := by
  unfold hintName
  simp only [String.toList_append, List.append_assoc]
  rfl

/-- **Plans with the same file name have the same parts in their names.** -/
theorem hintName_eq_iff (hp : p.HasIdentifiers) (hq : q.HasIdentifiers) :
    p.hintName = q.hintName ↔ p.namePath = q.namePath := by
  -- Splitting at points loses nothing, and no identifier holds one, so the names of the files are
  -- equal if the lists of their parts are.
  have hSplit : p.hintName = q.hintName ↔
      p.namePath.map (·.hint.toList) = q.namePath.map (·.hint.toList) := by
    rw [← splitOn_qualified hp, ← splitOn_qualified hq]
    constructor
    · intro h
      have hText := congrArg String.toList h
      rw [toList_hintName, toList_hintName] at hText
      rw [List.append_cancel_right hText]
    · intro h
      have hText := congrArg (List.intercalate ['.']) h
      rw [List.intercalate_splitOn, List.intercalate_splitOn] at hText
      refine String.toList_injective ?_
      rw [toList_hintName, toList_hintName, hText]
  rw [hSplit]
  constructor
  · intro h
    -- The kinds are left out of a path, and the text of a level shows everything else.
    have hBare : ∀ r : Plan, r.namePath.map Level.bare = r.namePath := by
      intro r
      unfold namePath
      rw [List.map_append, List.map_map, List.map_map]
      rfl
    rw [← hBare p, ← hBare q]
    exact Level.map_bare_eq_of_map_hint_eq hp.namePath hq.namePath h
  · intro h
    rw [h]

theorem exists_of_map_ofName_eq_append {as bs : List String} {rest : List Level}
    (h : as.map Level.ofName = bs.map Level.ofName ++ rest) :
    ∃ outer, as = bs ++ outer ∧ rest = outer.map Level.ofName := by
  obtain ⟨front, outer, rfl, hFront, rfl⟩ := List.map_eq_append_iff.1 h
  rw [List.map_injective_iff.2 Level.ofName_injective hFront]
  exact ⟨outer, rfl, rfl⟩

/-- Parts that one namespace has more than another one are levels on the other side. -/
theorem posesAs_or_eq {rest : List Level}
    (hParts : (namespaceParts p.inNamespace).map Level.ofName =
      (namespaceParts q.inNamespace).map Level.ofName ++ rest)
    (hLevels : q.levels.map Level.bare = rest ++ p.levels.map Level.bare) :
    p.inNamespace = q.inNamespace ∧ p.levels.map Level.bare = q.levels.map Level.bare ∨
      p.PosesAs q := by
  -- without a further part the namespaces are the same, and so are the levels
  obtain ⟨outer, hOuter, rfl⟩ := exists_of_map_ofName_eq_append hParts
  cases outer with
  | nil =>
    rw [List.append_nil] at hOuter
    exact Or.inl ⟨namespaceParts_injective hOuter, hLevels.symm⟩
  | cons name outer =>
    exact Or.inr ⟨name :: outer, List.cons_ne_nil name outer, hOuter, hLevels⟩

theorem PosesAs.namePath_eq (h : p.PosesAs q) : p.namePath = q.namePath := by
  obtain ⟨outer, -, hParts, hLevels⟩ := h
  unfold namePath
  rw [hParts, hLevels, List.map_append, List.append_assoc]

/-- **Plans with the same parts in their names** have the same namespace and levels, or one of them
poses as the other. -/
theorem namePath_eq_iff :
    p.namePath = q.namePath ↔
      (p.inNamespace = q.inNamespace ∧ p.levels.map Level.bare = q.levels.map Level.bare) ∨
        p.PosesAs q ∨ q.PosesAs p := by
  constructor
  · intro h
    unfold namePath at h
    -- one of the namespaces has at least as many parts as the other one
    rcases List.append_eq_append_iff.1 h with ⟨rest, hParts, hLevels⟩ | ⟨rest, hParts, hLevels⟩
    · rcases posesAs_or_eq hParts hLevels with ⟨hNamespace, hSame⟩ | hPoses
      · exact Or.inl ⟨hNamespace.symm, hSame.symm⟩
      · exact Or.inr (Or.inr hPoses)
    · rcases posesAs_or_eq hParts hLevels with hSame | hPoses
      · exact Or.inl hSame
      · exact Or.inr (Or.inl hPoses)
  · rintro (⟨hNamespace, hLevels⟩ | hPoses | hPoses)
    · unfold namePath
      rw [hNamespace, hLevels]
    · exact hPoses.namePath_eq
    · exact hPoses.namePath_eq.symm

/-- No plan poses as itself. -/
theorem PosesAs.irrefl (p : Plan) : ¬ p.PosesAs p := by
  rintro ⟨outer, hNonempty, hParts, -⟩
  exact hNonempty (List.self_eq_append_right.1 hParts)

/-- The name of a plan is the name of one file unless there is a slash in it. -/
theorem isFileName_of_notMem (hSlash : '/' ∉ p.hintName.toList) : IsFileName p.hintName := by
  -- the ending alone is longer than the names that have a meaning of their own
  have hLength : 2 < p.hintName.toList.length := by
    rw [toList_hintName, List.length_append]
    have hEnd : ".Validate.g.cs".toList.length = 14 := rfl
    omega
  have hShort : ∀ name : String, name.toList.length ≤ 2 → p.hintName ≠ name := by
    rintro name hName rfl
    exact absurd hLength (Nat.not_lt.2 hName)
  exact
    { ne_empty := hShort "" (by decide)
      no_slash := hSlash
      ne_current := hShort "." (by decide)
      ne_parent := hShort ".." (by decide) }

/-- The name of a plan of identifiers is the name of one file. -/
theorem isFileName_hintName (h : p.HasIdentifiers) : IsFileName p.hintName := by
  have hParts : ∀ part ∈ p.namePath.map (·.hint.toList), '/' ∉ part := by
    intro part hPart
    obtain ⟨l, hl, rfl⟩ := List.mem_map.1 hPart
    exact Level.notMem_hint (h.namePath l hl) (by decide) (by decide)
  -- a stem is its parts with points in between, and neither has a slash
  have hStem : '/' ∉ (p.qualified Level.hint).toList := by
    have hJoined : ['.'].intercalate ((p.qualified Level.hint).toList.splitOn '.') =
        (p.qualified Level.hint).toList := List.intercalate_splitOn '.'
    rw [← hJoined, splitOn_qualified h]
    exact notMem_intercalate (by decide) hParts
  have hEnd : '/' ∉ ".Validate.g.cs".toList := by decide
  refine isFileName_of_notMem ?_
  rw [toList_hintName, List.mem_append, not_or]
  exact ⟨hStem, hEnd⟩

end Plan

/-! ## The types of a program -/

/-- Whether the names in a declaration are identifiers. -/
def TypeHead.HasIdentifiers (t : TypeHead) : Prop :=
  IsIdentifier t.name ∧ (∀ parameter ∈ t.typeParameters, IsIdentifier parameter) ∧
    ∀ part ∈ namespaceParts t.inNamespace, IsIdentifier part

instance (t : TypeHead) : Decidable t.HasIdentifiers :=
  inferInstanceAs (Decidable (_ ∧ _ ∧ _))

/-- Whether the names in all declarations of a program are identifiers. -/
def Compilation.HasIdentifiers (c : Compilation) : Prop :=
  ∀ p ∈ Piece.ofCompilation c, p.head.HasIdentifiers

instance (c : Compilation) : Decidable c.HasIdentifiers :=
  inferInstanceAs (Decidable (∀ p ∈ Piece.ofCompilation c, p.head.HasIdentifiers))

namespace SymbolTable

variable {t : SymbolTable} {s r : Symbol} {config : Config}

/-- The plan of a type as far as its name goes. -/
def outline (t : SymbolTable) (s : Symbol) : Plan :=
  .ofSymbol t s "" .fresh []

/-- Whether a type is given a validator: nothing is in its way, and something is contributed. -/
def Emits [Arithmetic] (t : SymbolTable) (known : KnownSymbols) (s : Symbol) : Prop :=
  (∃ mode, t.eligible s = .ok mode) ∧ s.contributions known ≠ []

theorem hasIdentifiers_outline (h : ∀ p ∈ t.pieces, p.head.HasIdentifiers)
    (hs : s.first ∈ t.pieces) : (t.outline s).HasIdentifiers where
  levels_ne_nil := by
    unfold outline Plan.ofSymbol chain
    simp
  levels := by
    intro l hl
    obtain ⟨link, hLink, rfl⟩ := List.mem_map.1 hl
    obtain ⟨hName, hParameters, -⟩ := h link.first (first_mem_of_mem_chain hs link hLink)
    exact ⟨hName, hParameters⟩
  inNamespace := by
    intro part hPart
    have hOutermost : t.outermost s ∈ t.chain s := List.mem_of_mem_head? (head?_chain t s)
    obtain ⟨-, -, hNamespace⟩ := h _ (first_mem_of_mem_chain hs _ hOutermost)
    -- a namespace that counts is the one that is written
    have hOwn : ∀ name, t.namespace? s = some name →
        (t.outermost s).first.head.inNamespace = some name := by
      intro name hSome
      exact (Option.filter_eq_some_iff.1 hSome).1
    have hPart : part ∈ namespaceParts (t.namespace? s) := hPart
    cases hSome : t.namespace? s with
    | none =>
      rw [hSome] at hPart
      exact absurd hPart List.not_mem_nil
    | some name =>
      rw [hSome, ← hOwn name hSome] at hPart
      exact hNamespace part hPart

/-- **Types with the same namespace and levels are the same type.** -/
theorem Nested.key_eq_of_outline (h : t.Nested) (hs : s.first ∈ t.pieces) (hr : r.first ∈ t.pieces)
    (hNamespace : (t.outline s).inNamespace = (t.outline r).inNamespace)
    (hLevels : (t.outline s).levels.map Level.bare = (t.outline r).levels.map Level.bare) :
    s.key = r.key := by
  have hParts : ((t.chain s).map (·.first.head)).map TypeHead.keyPart =
      ((t.chain r).map (·.first.head)).map TypeHead.keyPart := by
    have hLevelParts := congrArg (List.map Level.keyPart) hLevels
    unfold outline Plan.ofSymbol at hLevelParts
    simp only [List.map_map] at hLevelParts ⊢
    exact hLevelParts
  have hKeys : (t.chain s).map Symbol.key = (t.chain r).map Symbol.key := by
    rw [h.keys_chain hs, h.keys_chain hr]
    refine TypeHead.keysIn_congr hParts fun _ => ?_
    rw [List.head?_map, List.head?_map, head?_chain, head?_chain]
    exact congrArg some hNamespace
  -- the type itself is the last link of its chain
  have hEnds := congrArg List.getLast? hKeys
  rw [List.getLast?_map, List.getLast?_map, getLast?_chain, getLast?_chain] at hEnds
  exact Option.some.inj hEnds

theorem emits_of_artifact [Arithmetic] {a : Artifact}
    (h : (CandidateResult.outcome config t s).artifact = some a) :
    t.Emits config.symbols s ∧ a.hintName = (t.outline s).hintName := by
  cases hEligible : t.eligible s with
  | error diagnostic =>
    rw [CandidateResult.artifact_outcome_of_error hEligible] at h
    cases h
  | ok mode =>
    rw [CandidateResult.artifact_outcome hEligible] at h
    split at h
    · cases h
    · next hSome =>
      obtain rfl := Option.some.inj h
      exact ⟨⟨⟨mode, hEligible⟩, hSome⟩, rfl⟩

theorem exists_artifact_of_emits [Arithmetic] (h : t.Emits config.symbols s) :
    ∃ a, (CandidateResult.outcome config t s).artifact = some a ∧
      a.hintName = (t.outline s).hintName := by
  obtain ⟨⟨mode, hEligible⟩, hSome⟩ := h
  have hArtifact : (CandidateResult.outcome config t s).artifact = _ :=
    CandidateResult.artifact_outcome hEligible
  rw [if_neg hSome] at hArtifact
  exact ⟨_, hArtifact, rfl⟩

/-- Whether a type of a program asks for the file of another one: both are given a validator, and
the plan of one poses as that of the other. Two types that collide are not the same type, as no plan
poses as itself. -/
def Collides [Arithmetic] (t : SymbolTable) (known : KnownSymbols) (s r : Symbol) : Prop :=
  t.Emits known s ∧ t.Emits known r ∧ (t.outline s).PosesAs (t.outline r)

/-- **Different types ask for the same file exactly if they collide.** -/
theorem Nested.hintName_outline_eq_iff (h : t.Nested)
    (hNames : ∀ p ∈ t.pieces, p.head.HasIdentifiers) (hs : s.first ∈ t.pieces)
    (hr : r.first ∈ t.pieces) (hNe : s.key ≠ r.key) :
    (t.outline s).hintName = (t.outline r).hintName ↔
      (t.outline s).PosesAs (t.outline r) ∨ (t.outline r).PosesAs (t.outline s) := by
  rw [Plan.hintName_eq_iff (hasIdentifiers_outline hNames hs) (hasIdentifiers_outline hNames hr),
    Plan.namePath_eq_iff]
  constructor
  · rintro (⟨hNamespace, hLevels⟩ | hPoses)
    · exact absurd (h.key_eq_of_outline hs hr hNamespace hLevels) hNe
    · exact hPoses
  · exact Or.inr

end SymbolTable

/-- Whether what two candidates give has different names. -/
def SymbolTable.Apart [Arithmetic] (t : SymbolTable) (config : Config) (s r : Symbol) : Prop :=
  ∀ a, (CandidateResult.outcome config t s).artifact = some a →
    ∀ b, (CandidateResult.outcome config t r).artifact = some b → a.hintName ≠ b.hintName

/-- The names in a pass are different exactly if different candidates give different names. -/
theorem nodup_hintNames_iff [Arithmetic] (config : Config) (t : SymbolTable) :
    ((PassOutput.outcome config t).artifacts.map Artifact.hintName).Nodup ↔
      ∀ s ∈ t.candidates config.symbols, ∀ r ∈ t.candidates config.symbols,
        s.key ≠ r.key → t.Apart config s r := by
  have hPairwise : ((PassOutput.outcome config t).artifacts.map Artifact.hintName).Nodup ↔
      (t.candidates config.symbols).Pairwise (t.Apart config) := by
    unfold List.Nodup SymbolTable.Apart
    rw [PassOutput.artifacts_outcome, List.pairwise_map, List.pairwise_filterMap]
  have hKeys : (t.candidates config.symbols).Pairwise fun s r => s.key ≠ r.key :=
    t.pairwise_key_symbols.filter _
  rw [hPairwise]
  constructor
  · intro h s hs r hr hNe
    -- being apart is symmetric, so it is enough to look at pairs in the order of the candidates
    have hSymm : Std.Symm (t.Apart config) :=
      ⟨fun s r hApart a ha b hb hSame => hApart b hb a ha hSame.symm⟩
    exact h.forall hs hr fun hSame => hNe (congrArg Symbol.key hSame)
  · intro h
    exact hKeys.imp_of_mem fun hs hr hNe => h _ hs _ hr hNe

/-- **Names of files are unique in a pass unless types collide.** In a program in which all names
are identifiers, a pass gives all files different names if and only if no candidate that is given a
validator poses as another one. If the names are different, then each file holds its own source
after all of them have been written. -/
theorem hintNames_nodup_iff [Arithmetic] (config : Config) {c : Compilation} {out : PassOutput}
    (hNames : c.HasIdentifiers) (hPass : generate config c = .ok out) :
    ((out.artifacts.map Artifact.hintName).Nodup ↔
        ∀ s ∈ (SymbolTable.ofCompilation c).candidates config.symbols,
          ∀ r ∈ (SymbolTable.ofCompilation c).candidates config.symbols,
            ¬ (SymbolTable.ofCompilation c).Collides config.symbols s r) ∧
      ((out.artifacts.map Artifact.hintName).Nodup →
        ∀ (directory : String) (files files' : Files.Tree),
          (CommandLine.writeArtifacts directory out : StateM Files.Tree _).run files =
              (.ok (), files') →
            ∀ a ∈ out.artifacts,
              files'.readBytes (Files.Path.join directory a.hintName) = .ok a.source.toUTF8) := by
  obtain ⟨-, rfl⟩ := generate_eq_ok_iff.1 hPass
  have hNested := SymbolTable.nested_ofCompilation c
  have hFirst : ∀ s ∈ (SymbolTable.ofCompilation c).candidates config.symbols,
      s.first ∈ (SymbolTable.ofCompilation c).pieces := fun _ hs =>
    SymbolTable.first_mem_of_mem_candidates hs
  refine ⟨?_, fun hNodup directory files files' hWrite => ?_⟩
  -- The files of two candidates have the same name if and only if one of the two poses as the
  -- other. `Collides` has a direction, so a shared name gives it for one order of the pair.
  · rw [nodup_hintNames_iff]
    constructor
    · rintro hApart s hs r hr ⟨hEmits, hEmits', hPoses⟩
      obtain ⟨a, ha, hName⟩ := SymbolTable.exists_artifact_of_emits hEmits
      obtain ⟨b, hb, hName'⟩ := SymbolTable.exists_artifact_of_emits hEmits'
      have hNe : s.key ≠ r.key := by
        intro hSame
        rw [SymbolTable.eq_of_key_eq (List.mem_filter.1 hs).1 (List.mem_filter.1 hr).1 hSame]
          at hPoses
        exact Plan.PosesAs.irrefl _ hPoses
      have hSame := (hNested.hintName_outline_eq_iff hNames (hFirst s hs) (hFirst r hr) hNe).2
        (Or.inl hPoses)
      exact hApart s hs r hr hNe a ha b hb (hName.trans (hSame.trans hName'.symm))
    · intro hApart s hs r hr hNe a ha b hb hSame
      obtain ⟨hEmits, hName⟩ := SymbolTable.emits_of_artifact ha
      obtain ⟨hEmits', hName'⟩ := SymbolTable.emits_of_artifact hb
      rw [hName, hName',
        hNested.hintName_outline_eq_iff hNames (hFirst s hs) (hFirst r hr) hNe] at hSame
      rcases hSame with hPoses | hPoses
      · exact hApart s hs r hr ⟨hEmits, hEmits', hPoses⟩
      · exact hApart r hr s hs ⟨hEmits', hEmits, hPoses⟩
  · have hFileNames : ∀ a ∈ (PassOutput.outcome config (.ofCompilation c)).artifacts,
        IsFileName a.hintName := by
      intro a ha
      rw [PassOutput.artifacts_outcome] at ha
      obtain ⟨s, hs, hArtifact⟩ := List.mem_filterMap.1 ha
      rw [(SymbolTable.emits_of_artifact hArtifact).2]
      exact Plan.isFileName_hintName (SymbolTable.hasIdentifiers_outline hNames (hFirst s hs))
    exact CommandLine.readBytes_of_writeArtifacts hFileNames hNodup hWrite

/-- A class in a namespace, and a class of the same name in a class that is named like the
namespace. -/
def Compilation.twoBoxes : Compilation :=
  let publicClass (name : String) : TypeHead := { (default : TypeHead) with
    kind := .classType
    name
    modifiers := ["public", "partial"]
    symbol := TypeHead.namedType }
  let width : Member := { (default : Member) with
    kind := .property
    name := "Width"
    attributes := [⟨KnownSymbols.standard.lessThan,
      [⟨"int", .number (.integer 7 (by decide))⟩], []⟩] }
  let box : TypeHead := { publicClass "Box" with
    inNamespace := some "Depot"
    attributes := [⟨KnownSymbols.standard.marker, [], []⟩]
    members := [width] }
  ⟨[⟨"Box.cs", [⟨box, []⟩, ⟨publicClass "Depot", [⟨box, []⟩]⟩]⟩]⟩

/-- One of the two classes poses as the other one, so that both ask for the same file. -/
theorem exists_collides_twoBoxes :
    Compilation.twoBoxes.HasIdentifiers ∧
      ∃ out, generate .standard .twoBoxes = .ok out ∧
        ∃ s ∈ (SymbolTable.ofCompilation .twoBoxes).candidates .standard,
          ∃ r ∈ (SymbolTable.ofCompilation .twoBoxes).candidates .standard,
            (SymbolTable.ofCompilation .twoBoxes).Collides .standard s r := by
  have hNames : Compilation.twoBoxes.HasIdentifiers := by decide
  -- the pass is computed; that two types collide follows from the two equal names
  have hEqual : (generate .standard .twoBoxes).map (fun o => o.artifacts.map Artifact.hintName) =
      .ok ["Depot.Box.Validate.g.cs", "Depot.Box.Validate.g.cs"] := by decide +kernel
  obtain ⟨out, hPass, hHintNames⟩ := except_map_eq_ok_iff.1 hEqual
  refine ⟨hNames, out, hPass, ?_⟩
  by_contra hNone
  have hNodup : (out.artifacts.map Artifact.hintName).Nodup :=
    (hintNames_nodup_iff .standard hNames hPass).1.2 fun s hs r hr hCollides =>
      hNone ⟨s, hs, r, hr, hCollides⟩
  rw [← hHintNames] at hNodup
  exact absurd hNodup (by decide)

end ValidatorGen

import ValidatorGen.Proofs.Keys
import ValidatorGen.Proofs.Nesting
import ValidatorGen.Proofs.Related
import Mathlib.Data.List.Find

/-!
# Unrelated declarations do not affect each other

Two programs that have no outermost declaration of one name in common can be gone through together
or one after the other: the types of one are looked for among the pieces of both, but are found
among its own only. So each type has the same pieces and the same types around it in either case.

Separate tables are defined by their keys, and not by the declarations that made them: neither a
piece nor the type around it may have a key of the other table. Why keys of different programs are
different is a matter of their text, and is settled by the roots of keys, which tell the outermost
declaration (`TypeHead.keyIn_none_inj`).

Main results:

* `SymbolTable.Separate` — tables whose keys have nothing to do with each other;
* `SymbolTable.symbols_append` — their types stand one after the other;
* `SymbolTable.Extends.ofCandidate_eq` — a type gives the same in a larger table that finds the same
  types around it;
* `generate_merge` — a pass over two programs put together gives what a pass over each one gives.
-/

namespace ValidatorGen

open Number (Arithmetic)

namespace SymbolTable

/-- Two tables put together. This is the table of the merged program, as pieces are made file by
file. -/
def append (t u : SymbolTable) : SymbolTable :=
  ⟨t.pieces ++ u.pieces⟩

/-- Whether no key that one table speaks of is the key of a piece of the other. -/
structure Separate (t u : SymbolTable) : Prop where
  keys : ∀ p ∈ t.pieces, ∀ q ∈ u.pieces, p.key ≠ q.key
  parents_left : ∀ p ∈ t.pieces, ∀ outer ∈ p.parent, ∀ q ∈ u.pieces, q.key ≠ outer
  parents_right : ∀ q ∈ u.pieces, ∀ outer ∈ q.parent, ∀ p ∈ t.pieces, p.key ≠ outer

variable {t u : SymbolTable}

/-! ## Types of one of two tables -/

theorem piecesOf_append (t u : SymbolTable) (key : String) :
    (t.append u).piecesOf key = t.piecesOf key ++ u.piecesOf key := by
  rw [piecesOf, append, List.filter_append]
  rfl

theorem piecesOf_eq_nil {key : String} (h : ∀ p ∈ t.pieces, p.key ≠ key) :
    t.piecesOf key = [] := by
  rw [piecesOf, List.filter_eq_nil_iff]
  exact fun p hp hKey => h p hp (of_decide_eq_true hKey)

theorem symbol?_append_left {key : String} (h : ∀ q ∈ u.pieces, q.key ≠ key) :
    (t.append u).symbol? key = t.symbol? key := by
  rw [symbol?, symbol?, piecesOf_append, piecesOf_eq_nil h, List.append_nil]

theorem symbol?_append_right {key : String} (h : ∀ p ∈ t.pieces, p.key ≠ key) :
    (t.append u).symbol? key = u.symbol? key := by
  rw [symbol?, symbol?, piecesOf_append, piecesOf_eq_nil h, List.nil_append]

/-- Tables with different keys have their types one after the other. -/
theorem symbols_append (h : t.Separate u) : (t.append u).symbols = t.symbols ++ u.symbols := by
  have hOther : (u.pieces.map Piece.key).removeAll (t.pieces.map Piece.key) =
      u.pieces.map Piece.key := by
    rw [List.removeAll, List.filter_eq_self]
    intro key hKey
    obtain ⟨q, hq, rfl⟩ := List.mem_map.1 hKey
    have hNotMem : q.key ∉ t.pieces.map Piece.key := by
      intro hMem
      obtain ⟨p, hp, hSame⟩ := List.mem_map.1 hMem
      exact h.keys p hp q hq hSame
    simpa using hNotMem
  have hKeys : (t.append u).keys = t.keys ++ u.keys := by
    rw [keys, append, List.map_append, List.eraseDups_append, hOther]
    rfl
  rw [symbols, hKeys, List.filterMap_append, symbols, symbols]
  congr 1
  -- the types of the first table take no piece of the second one, and the other way round
  · refine List.filterMap_congr fun key hKey => symbol?_append_left fun q hq hSame => ?_
    obtain ⟨p, hp, rfl⟩ := mem_keys_iff.1 hKey
    exact h.keys p hp q hq hSame.symm
  · refine List.filterMap_congr fun key hKey => symbol?_append_right fun p hp hSame => ?_
    obtain ⟨q, hq, rfl⟩ := mem_keys_iff.1 hKey
    exact h.keys p hp q hq hSame

theorem candidates_append (h : t.Separate u) (known : KnownSymbols) :
    (t.append u).candidates known = t.candidates known ++ u.candidates known := by
  rw [candidates, symbols_append h, List.filter_append]
  rfl

theorem first_mem_of_enclosing? {s outer : Symbol} (h : t.enclosing? s = some outer) :
    outer.first ∈ t.pieces := by
  obtain ⟨key, -, hSymbol⟩ := Option.bind_eq_some_iff.1 h
  exact first_mem_of_symbol? hSymbol

end SymbolTable

/-! ## A table among others -/

/-- Whether a larger table finds the same types around the types of a table. The larger table may
have any further types, so the lemma serves both sides of a merge. -/
def SymbolTable.Extends (m t : SymbolTable) : Prop :=
  ∀ p ∈ t.pieces, ∀ outer ∈ p.parent, m.symbol? outer = t.symbol? outer

namespace SymbolTable

variable {m t u : SymbolTable}

theorem Separate.extends_left (h : t.Separate u) : (t.append u).Extends t :=
  fun p hp outer hOuter => symbol?_append_left (h.parents_left p hp outer hOuter)

theorem Separate.extends_right (h : t.Separate u) : (t.append u).Extends u :=
  fun q hq outer hOuter => symbol?_append_right (h.parents_right q hq outer hOuter)

namespace Extends

variable {s : Symbol}

theorem enclosing?_eq (h : m.Extends t) (hs : s.first ∈ t.pieces) :
    m.enclosing? s = t.enclosing? s := by
  rw [enclosing?, enclosing?]
  cases hParent : s.first.parent with
  | none => rfl
  | some outer => exact h s.first hs outer hParent

/-- A larger table that finds the same types around those of a table mirrors it. -/
theorem mirrors (h : m.Extends t) : Mirrors (fun s r => s = r ∧ s.first ∈ t.pieces) m t where
  nests := by
    rintro s _ ⟨rfl, hs⟩
    rw [h.enclosing?_eq hs]
    cases hOuter : t.enclosing? s with
    | none => exact .none
    | some outer => exact .some ⟨rfl, first_mem_of_enclosing? hOuter⟩
  form := by
    rintro s _ ⟨rfl, -⟩
    exact Symbol.SameForm.refl s

/-- **A type gives the same in a larger table** that finds the same types around it. -/
theorem ofCandidate_eq [Arithmetic] (h : m.Extends t) (hs : s.first ∈ t.pieces) (config : Config) :
    CandidateResult.ofCandidate config m s = CandidateResult.ofCandidate config t s :=
  h.mirrors.ofCandidate_eq ⟨rfl, hs⟩ config rfl

end Extends

end SymbolTable

/-! ## A pass over two programs -/

/-- The outermost declarations of a program. -/
def Compilation.outermost (c : Compilation) : List TypeHead :=
  c.files.flatMap fun file => file.types.map TypeDeclaration.head

/-- What one pass gives and then what another one gives. -/
def PassOutput.append (a b : PassOutput) : PassOutput where
  artifacts := a.artifacts ++ b.artifacts
  diagnostics := a.diagnostics ++ b.diagnostics
  cancelled := a.cancelled || b.cancelled

namespace SymbolTable

/-- The keys that a piece speaks of have the root of an outermost declaration. -/
theorem exists_hasRoot {c : Compilation} {p : Piece} (hp : p ∈ (ofCompilation c).pieces) :
    ∃ d ∈ c.outermost, p.HasRoot (rootOf (d.keyIn none)) := by
  obtain ⟨file, hFile, hp⟩ := List.mem_flatMap.1 hp
  -- within a file: the piece belongs to one of the outermost declarations
  have hDeclaration : ∀ ds : List TypeDeclaration, p ∈ Piece.ofDeclarations file.path none ds →
      ∃ d ∈ ds, p.HasRoot (rootOf (d.head.keyIn none)) := by
    intro ds hp
    induction ds with
    | nil =>
      rw [Piece.ofDeclarations] at hp
      exact absurd hp List.not_mem_nil
    | cons d rest ih =>
      rw [Piece.ofDeclarations, List.mem_append] at hp
      rcases hp with hp | hp
      · exact ⟨d, List.mem_cons_self, Piece.hasRoot_of_mem_ofDeclaration file.path none d p hp⟩
      · obtain ⟨e, he, hRoot⟩ := ih hp
        exact ⟨e, List.mem_cons_of_mem d he, hRoot⟩
  obtain ⟨d, hd, hRoot⟩ := hDeclaration file.types hp
  exact ⟨d.head, List.mem_flatMap.2 ⟨file, hFile, List.mem_map_of_mem hd⟩, hRoot⟩

/-- Programs without a common outermost name have separate tables. -/
theorem separate_ofCompilation {c f : Compilation} (hc : ∀ d ∈ c.outermost, d.IsPlain)
    (hf : ∀ d ∈ f.outermost, d.IsPlain)
    (hNames : ∀ d ∈ c.outermost, ∀ e ∈ f.outermost, ¬ d.SameName e) :
    (ofCompilation c).Separate (ofCompilation f) := by
  -- a key of one program has another root than a key of the other
  have hRoots : ∀ d ∈ c.outermost, ∀ e ∈ f.outermost,
      rootOf (d.keyIn none) ≠ rootOf (e.keyIn none) := by
    intro d hd e he hSame
    rw [TypeHead.rootOf_keyIn_none (hc d hd), TypeHead.rootOf_keyIn_none (hf e he)] at hSame
    exact hNames d hd e he
      (TypeHead.keyIn_none_inj (hc d hd) (hf e he) (String.toList_injective hSame))
  -- and each piece speaks of keys with one root only
  have hApart : ∀ p ∈ (ofCompilation c).pieces, ∀ q ∈ (ofCompilation f).pieces,
      ∃ root root', root ≠ root' ∧ p.HasRoot root ∧ q.HasRoot root' := by
    intro p hp q hq
    obtain ⟨d, hd, hRoot⟩ := exists_hasRoot hp
    obtain ⟨e, he, hRoot'⟩ := exists_hasRoot hq
    exact ⟨_, _, hRoots d hd e he, hRoot, hRoot'⟩
  constructor
  · intro p hp q hq hSame
    obtain ⟨root, root', hNe, hRoot, hRoot'⟩ := hApart p hp q hq
    exact hNe (hRoot.1.symm.trans ((congrArg rootOf hSame).trans hRoot'.1))
  · intro p hp outer hOuter q hq hSame
    obtain ⟨root, root', hNe, hRoot, hRoot'⟩ := hApart p hp q hq
    exact hNe ((hRoot.2 outer hOuter).symm.trans ((congrArg rootOf hSame).symm.trans hRoot'.1))
  · intro q hq outer hOuter p hp hSame
    obtain ⟨root, root', hNe, hRoot, hRoot'⟩ := hApart p hp q hq
    exact hNe (hRoot.1.symm.trans ((congrArg rootOf hSame).trans (hRoot'.2 outer hOuter)))

end SymbolTable

theorem PassOutput.ofResults_append (a b : List CandidateResult) :
    ofResults (a ++ b) = (ofResults a).append (ofResults b) := by
  simp [ofResults, append]

/-- **Unrelated declarations do not affect each other.** A pass over two programs without a common
outermost name gives what a pass over the first one and then a pass over the second one give. -/
theorem generate_merge [Arithmetic] (config : Config) {c f : Compilation}
    (hc : ∀ d ∈ c.outermost, d.IsPlain) (hf : ∀ d ∈ f.outermost, d.IsPlain)
    (hNames : ∀ d ∈ c.outermost, ∀ e ∈ f.outermost, ¬ d.SameName e) :
    generate config (c.merge f) = do
      let first ← generate config c
      let second ← generate config f
      return first.append second := by
  have hSeparate := SymbolTable.separate_ofCompilation hc hf hNames
  have hTable : SymbolTable.ofCompilation (c.merge f) =
      (SymbolTable.ofCompilation c).append (SymbolTable.ofCompilation f) :=
    congrArg SymbolTable.mk (Piece.ofCompilation_merge c f)
  have hFirst : ∀ s ∈ (SymbolTable.ofCompilation c).candidates config.symbols,
      CandidateResult.ofCandidate config (.ofCompilation (c.merge f)) s =
        CandidateResult.ofCandidate config (.ofCompilation c) s := fun s hs => by
    rw [hTable]
    exact hSeparate.extends_left.ofCandidate_eq (SymbolTable.first_mem_of_mem_candidates hs) config
  have hSecond : ∀ s ∈ (SymbolTable.ofCompilation f).candidates config.symbols,
      CandidateResult.ofCandidate config (.ofCompilation (c.merge f)) s =
        CandidateResult.ofCandidate config (.ofCompilation f) s := fun s hs => by
    rw [hTable]
    exact hSeparate.extends_right.ofCandidate_eq (SymbolTable.first_mem_of_mem_candidates hs) config
  have hCandidates : (SymbolTable.ofCompilation (c.merge f)).candidates config.symbols =
      (SymbolTable.ofCompilation c).candidates config.symbols ++
        (SymbolTable.ofCompilation f).candidates config.symbols := by
    rw [hTable, SymbolTable.candidates_append hSeparate]
  -- the candidates of the first program are gone through before those of the second one
  rw [generate, hCandidates, List.mapM_append, mapM_congr hFirst, mapM_congr hSecond, generate,
    generate]
  cases ((SymbolTable.ofCompilation c).candidates config.symbols).mapM
      (CandidateResult.ofCandidate config (.ofCompilation c)) with
  | error abort => rfl
  | ok a =>
    cases ((SymbolTable.ofCompilation f).candidates config.symbols).mapM
        (CandidateResult.ofCandidate config (.ofCompilation f)) with
    | error abort => rfl
    | ok b => exact congrArg Except.ok (PassOutput.ofResults_append a b)

/-- A marked class with a class of the same name in it. -/
def Compilation.nestedBoxes (inNamespace : Option String) : Compilation :=
  let box : TypeHead := { (default : TypeHead) with
    kind := .classType
    name := "Box"
    inNamespace
    modifiers := ["public", "partial"]
    attributes := [⟨KnownSymbols.standard.marker, [], []⟩]
    symbol := TypeHead.namedType }
  ⟨[⟨"Box.cs", [⟨box, [⟨box, []⟩]⟩]⟩]⟩

/-- Two classes of one name in different namespaces, each with a class of that name in it. -/
theorem generate_merge_nestedBoxes :
    (∀ d ∈ (Compilation.nestedBoxes none).outermost, d.IsPlain) ∧
      (∀ d ∈ (Compilation.nestedBoxes (some "Depot")).outermost, d.IsPlain) ∧
      (∀ d ∈ (Compilation.nestedBoxes none).outermost,
        ∀ e ∈ (Compilation.nestedBoxes (some "Depot")).outermost, ¬ d.SameName e) ∧
      generate .standard ((Compilation.nestedBoxes none).merge (.nestedBoxes (some "Depot"))) = do
        let first ← generate .standard (.nestedBoxes none)
        let second ← generate .standard (.nestedBoxes (some "Depot"))
        return first.append second := by
  have hFirst : ∀ d ∈ (Compilation.nestedBoxes none).outermost, d.IsPlain := by decide
  have hSecond : ∀ d ∈ (Compilation.nestedBoxes (some "Depot")).outermost, d.IsPlain := by decide
  have hNames : ∀ d ∈ (Compilation.nestedBoxes none).outermost,
      ∀ e ∈ (Compilation.nestedBoxes (some "Depot")).outermost, ¬ d.SameName e := by decide
  exact ⟨hFirst, hSecond, hNames, generate_merge .standard hFirst hSecond hNames⟩

end ValidatorGen

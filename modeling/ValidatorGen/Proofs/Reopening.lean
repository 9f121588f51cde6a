import ValidatorGen.Proofs.Independence

/-!
# A plan opens its type again

The levels of a plan are opened by declarations nested in each other. Next to the program they add
one piece to each type in the chain of the type that the plan is for, and to no other type; no type
is added, and none changes its name, its arity, its namespace or the type around it.

A declaration belongs to a type by its key, and keys are made of names, arities and the outermost
namespace. A plan has these in its levels, since they are taken from the first pieces of the types
in the chain, so the file of a plan has the keys of the chain. Whatever else stands in the program,
a piece with a key that is in use joins the pieces of that type at their end. The first piece stays
the first one, and with it all that is told by the first piece: the name, the arity, the namespace
and the type around.

Main results:

* `SymbolTable.Nested.keysIn_of_reopens` — declarations that open the levels of a plan have the keys
  of the types that the plan opens;
* `SymbolTable.forall₂_gains_append` — pieces of types that are there only come to these types;
* `SymbolTable.reopened_of_reopens` — a program next to a file that opens the levels of a plan.
-/

namespace ValidatorGen

/-! ## Declarations that open levels -/

namespace Level

/-- What a declaration opens. -/
def ofHead (t : TypeHead) : Level :=
  ⟨t.kind, t.name, t.typeParameters⟩

/-- A declaration that opens a level and has nothing in it. -/
def opening (inNamespace : Option String) (l : Level) : TypeHead :=
  { (default : TypeHead) with
    kind := l.kind
    name := l.name
    inNamespace
    modifiers := ["public", "partial"]
    typeParameters := l.typeParameters
    symbol := TypeHead.namedType }

end Level

namespace TypeHead

/-- A declaration that holds nothing but one declaration, and so on. It is how the declarations
stand in a file that opens types nested in each other. -/
def nest : List TypeHead → List TypeDeclaration
  | [] => []
  | t :: rest => [⟨t, nest rest⟩]

/-- A namespace that counts is the one that counts where it is written out. -/
theorem ownNamespace?_eq_of_inNamespace {a b : TypeHead}
    (h : a.inNamespace = b.ownNamespace?) : a.ownNamespace? = b.ownNamespace? := by
  unfold ownNamespace? at h ⊢
  rw [h, Option.filter_filter]
  simp

end TypeHead

/-- Heads that open the levels of a plan, the outermost one in its namespace. Nothing is said about
modifiers, attributes, bases and members. -/
structure Plan.Reopens (p : Plan) (heads : List TypeHead) : Prop where
  levels : heads.map Level.ofHead = p.levels
  inNamespace : ∀ outermost ∈ heads.head?, outermost.inNamespace = p.inNamespace

/-- There is always a way to open the levels of a plan. -/
theorem Plan.reopens_opening (p : Plan) :
    p.Reopens (p.levels.map (Level.opening p.inNamespace)) where
  levels := by
    rw [List.map_map]
    exact List.map_id p.levels
  inNamespace := by
    intro outermost hMem
    rw [List.head?_map] at hMem
    obtain ⟨l, -, rfl⟩ := Option.map_eq_some_iff.1 hMem
    rfl

/-- Nested declarations have the keys of their heads. -/
theorem Piece.keys_ofDeclarations_nest (path : String) (parent : Option String)
    (heads : List TypeHead) :
    (ofDeclarations path parent (TypeHead.nest heads)).map Piece.key =
      TypeHead.keysIn parent heads := by
  induction heads generalizing parent with
  | nil => rfl
  | cons t rest ih =>
    rw [TypeHead.keysIn_cons]
    unfold TypeHead.nest
    simp only [ofDeclarations, ofDeclaration, List.append_nil, List.map_cons]
    exact congrArg (t.keyIn parent :: ·) (ih (some (t.keyIn parent)))

/-! ## More pieces of the same types -/

namespace SymbolTable

/-- Whether a type of one table is that of another one with the pieces of its key among some
pieces, and has kept what the table knows of it. -/
structure Gains (t u : SymbolTable) (added : List Piece) (s r : Symbol) : Prop where
  key : r.key = s.key
  name : r.name = s.name
  arity : r.arity = s.arity
  inNamespace : u.namespace? r = t.namespace? s
  enclosing : (u.enclosing? r).map Symbol.key = (t.enclosing? s).map Symbol.key
  pieces : r.pieces = s.pieces ++ added.filter (·.key = s.key)

variable {t u : SymbolTable} {s r : Symbol}

/-- Types of two tables that start with the same piece. -/
def SameFirst (s r : Symbol) : Prop :=
  s.first = r.first

/-- **Pieces of types that are there add no type.** -/
theorem keys_append_of_subset (h : ∀ q ∈ u.pieces, q.key ∈ t.keys) :
    (t.append u).keys = t.keys := by
  have hNone : (u.pieces.map Piece.key).removeAll (t.pieces.map Piece.key) = [] := by
    rw [List.removeAll, List.filter_eq_nil_iff]
    intro key hKey
    obtain ⟨q, hq, rfl⟩ := List.mem_map.1 hKey
    obtain ⟨p, hp, hSame⟩ := mem_keys_iff.1 (h q hq)
    have hMem : q.key ∈ t.pieces.map Piece.key := hSame ▸ List.mem_map_of_mem hp
    simpa using hMem
  unfold keys append
  rw [List.map_append, List.eraseDups_append, hNone, List.eraseDups_nil, List.append_nil]

/-- The type of a key has the pieces that it had, and then those that came to it. A key that is not
in use stays so. -/
theorem rel_symbol?_append (h : ∀ q ∈ u.pieces, q.key ∈ t.keys) (key : String) :
    Option.Rel (fun s r => SameFirst s r ∧ r.pieces = s.pieces ++ u.piecesOf key)
      (t.symbol? key) ((t.append u).symbol? key) := by
  by_cases hKey : key ∈ t.keys
  · obtain ⟨s, hs⟩ := exists_symbol?_of_mem_keys hKey
    have hPieces : (t.append u).piecesOf key = s.first :: (s.rest ++ u.piecesOf key) := by
      rw [piecesOf_append, symbol?_eq_some_iff.1 hs]
      rfl
    have hFound : (t.append u).symbol? key = some ⟨s.first, s.rest ++ u.piecesOf key⟩ :=
      symbol?_eq_some_iff.2 hPieces
    rw [hs, hFound]
    exact .some ⟨rfl, rfl⟩
  · -- nothing has this key in either table
    have hRight : ∀ q ∈ u.pieces, q.key ≠ key := fun q hq hSame => hKey (hSame ▸ h q hq)
    have hLeft : t.symbol? key = none := by
      unfold symbol?
      rw [piecesOf_eq_nil fun p hp hSame => hKey (mem_keys_iff.2 ⟨p, hp, hSame⟩)]
    rw [symbol?_append_left hRight, hLeft]
    exact .none

/-- The types around types are found by the keys that first pieces tell, and first pieces have
stayed. -/
theorem nests_append (h : ∀ q ∈ u.pieces, q.key ∈ t.keys) : Nests SameFirst t (t.append u) := by
  intro s r hsr
  unfold enclosing?
  rw [← show s.first = r.first from hsr]
  cases s.first.parent with
  | none => exact .none
  | some outer =>
    have hOuter := rel_symbol?_append h outer
    rw [Option.bind_some, Option.bind_some]
    -- both tables find a type by the key, or neither does
    generalize t.symbol? outer = a at hOuter
    generalize (t.append u).symbol? outer = b at hOuter
    cases hOuter with
    | none => exact .none
    | some hab => exact .some hab.1

/-- All that a table knows of a type is told by the first pieces of the types in its chain. -/
theorem SameFirst.gains (h : ∀ q ∈ u.pieces, q.key ∈ t.keys) (hsr : SameFirst s r)
    (hPieces : r.pieces = s.pieces ++ u.piecesOf s.key) :
    Gains t (t.append u) u.pieces s r where
  key := congrArg Piece.key hsr.symm
  name := congrArg (·.head.name) hsr.symm
  arity := congrArg (·.head.arity) hsr.symm
  inNamespace := by
    have hOutermost := (nests_append h).rel_outermost hsr
    exact congrArg (·.head.ownNamespace?) hOutermost.symm
  enclosing := by
    have hOuter := nests_append h s r hsr
    generalize t.enclosing? s = a at hOuter
    generalize (t.append u).enclosing? r = b at hOuter
    cases hOuter with
    | none => rfl
    | some hab => exact congrArg (fun p : Piece => some p.key) hab.symm
  pieces := hPieces

/-- **Pieces of types that are there only come to their types.** -/
theorem forall₂_gains_append (h : ∀ q ∈ u.pieces, q.key ∈ t.keys) :
    List.Forall₂ (Gains t (t.append u) u.pieces) t.symbols (t.append u).symbols := by
  unfold symbols
  rw [keys_append_of_subset h]
  refine List.rel_filterMap (R := Eq) ?_ (List.forall₂_refl _)
  rintro key _ rfl
  -- The keys are the same on both sides, so the types are compared key by key.
  have hFound := rel_symbol?_append h key
  cases hs : t.symbol? key with
  | none =>
    rw [hs] at hFound
    generalize (t.append u).symbol? key = b at hFound
    cases hFound
    exact .none
  | some s =>
    rw [hs] at hFound
    generalize (t.append u).symbol? key = b at hFound
    cases hFound with
    | some hab =>
      obtain ⟨hFirst, hPieces⟩ := hab
      exact .some (hFirst.gains h (key_of_symbol? hs ▸ hPieces))

/-! ## The file of a plan -/

/-- What comes of a table when a type is opened again: one piece for each link of the chain of the
type, and nothing else. -/
structure Reopened (t u : SymbolTable) (s : Symbol) (added : List Piece) : Prop where
  pieces : u.pieces = t.pieces ++ added
  /-- No type is added, and all types keep their places. -/
  keys : u.keys = t.keys
  /-- All types keep what is known of them and gain the pieces of their keys. -/
  symbols : List.Forall₂ (Gains t u added) t.symbols u.symbols
  /-- There is one piece for each link, from the outermost type to the type itself. -/
  links : added.map Piece.key = (t.chain s).map Symbol.key
  innermost : added.getLast?.map Piece.key = some s.key
  /-- No link gets two pieces. -/
  nodup : (added.map Piece.key).Nodup

/-- Heads that open the levels of a plan have the keys of the links of the chain. Levels have the
names and the arities, and the namespace is that of the outermost link. -/
theorem Nested.keysIn_of_reopens (h : t.Nested) (hs : s.first ∈ t.pieces) {capability : String}
    {mode : Mode} {constraints : List Constraint} {heads : List TypeHead}
    (hHeads : (Plan.ofSymbol t s capability mode constraints).Reopens heads) :
    TypeHead.keysIn none heads = (t.chain s).map Symbol.key := by
  rw [h.keys_chain hs]
  have hLevels : heads.map Level.ofHead = ((t.chain s).map (·.first.head)).map Level.ofHead := by
    rw [hHeads.levels, List.map_map]
    rfl
  have hParts : heads.map TypeHead.keyPart =
      ((t.chain s).map (·.first.head)).map TypeHead.keyPart := by
    have hLevelParts := congrArg (List.map Level.keyPart) hLevels
    rw [List.map_map, List.map_map] at hLevelParts
    exact hLevelParts
  refine TypeHead.keysIn_congr hParts fun _ => ?_
  -- the namespace of the plan is that of the outermost link
  rw [List.head?_map, head?_chain]
  cases heads with
  | nil =>
    have hNone : (t.chain s).head? = none := by
      rw [List.map_eq_nil_iff.1 (List.map_eq_nil_iff.1 hLevels.symm)]
      rfl
    rw [head?_chain] at hNone
    cases hNone
  | cons outermost rest =>
    have hOwn : outermost.inNamespace = (t.outermost s).first.head.ownNamespace? :=
      hHeads.inNamespace outermost rfl
    exact congrArg some (TypeHead.ownNamespace?_eq_of_inNamespace hOwn)

/-- **A plan opens its type again.** Next to a file of nested declarations that open the levels of a
plan, a program has the same types as without it, and only the links of the chain of the type have
one piece more. -/
theorem reopened_of_reopens (c : Compilation) {s : Symbol} (hs : s ∈ (ofCompilation c).symbols)
    (capability : String) (mode : Mode) (constraints : List Constraint) {heads : List TypeHead}
    (hHeads : (Plan.ofSymbol (ofCompilation c) s capability mode constraints).Reopens heads)
    (path : String) :
    ∃ added, (ofCompilation c).Reopened
      (ofCompilation (c.merge ⟨[⟨path, TypeHead.nest heads⟩]⟩)) s added := by
  have hNested := nested_ofCompilation c
  have hMem : s.first ∈ (ofCompilation c).pieces := first_mem_of_mem_symbols hs
  let file : Compilation := ⟨[⟨path, TypeHead.nest heads⟩]⟩
  have hTable : ofCompilation (c.merge file) = (ofCompilation c).append (ofCompilation file) :=
    congrArg SymbolTable.mk (Piece.ofCompilation_merge c file)
  have hKeys : (ofCompilation file).pieces.map Piece.key =
      ((ofCompilation c).chain s).map Symbol.key := by
    have hPieces : (ofCompilation file).pieces =
        Piece.ofDeclarations path none (TypeHead.nest heads) := List.flatMap_singleton _ _
    rw [hPieces, Piece.keys_ofDeclarations_nest, hNested.keysIn_of_reopens hMem hHeads]
  -- so every piece of the file belongs to a type that is there
  have hSubset : ∀ q ∈ (ofCompilation file).pieces, q.key ∈ (ofCompilation c).keys := by
    intro q hq
    have hLink : q.key ∈ ((ofCompilation c).chain s).map Symbol.key :=
      hKeys ▸ List.mem_map_of_mem hq
    obtain ⟨link, hLink, hSame⟩ := List.mem_map.1 hLink
    exact mem_keys_iff.2 ⟨link.first, first_mem_of_mem_chain hMem link hLink, hSame⟩
  refine ⟨(ofCompilation file).pieces, ?_⟩
  rw [hTable]
  exact
    { pieces := rfl
      keys := keys_append_of_subset hSubset
      symbols := forall₂_gains_append hSubset
      links := hKeys
      innermost := by rw [← List.getLast?_map, hKeys, List.getLast?_map, getLast?_chain]; rfl
      nodup := hKeys ▸ hNested.nodup_keys_chain hMem }

/-- A generic class nested in a generic class, opened again by a file of its own. -/
theorem reopened_of_reopens_nested :
    let shed : TypeHead := { (default : TypeHead) with
      name := "Shed", inNamespace := some "Depot", typeParameters := ["T"] }
    let box : TypeHead := { (default : TypeHead) with name := "Box", typeParameters := ["U", "V"] }
    let c : Compilation := ⟨[⟨"Shed.cs", [⟨shed, [⟨box, []⟩]⟩]⟩]⟩
    ∃ s ∈ (ofCompilation c).symbols, s.key = box.keyIn (shed.keyIn none) ∧
      ∃ heads, (Plan.ofSymbol (ofCompilation c) s "" .fresh []).Reopens heads ∧
        ∃ added, (ofCompilation c).Reopened
          (ofCompilation (c.merge ⟨[⟨"Box.g.cs", TypeHead.nest heads⟩]⟩)) s added := by
  intro shed box c
  have hKey : box.keyIn (shed.keyIn none) ∈ (ofCompilation c).keys := by decide
  obtain ⟨s, hs, hSame⟩ := exists_mem_symbols_of_mem_keys hKey
  have hHeads := (Plan.ofSymbol (ofCompilation c) s "" .fresh []).reopens_opening
  exact ⟨s, hs, hSame, _, hHeads, reopened_of_reopens c hs "" .fresh [] hHeads "Box.g.cs"⟩

end SymbolTable

end ValidatorGen

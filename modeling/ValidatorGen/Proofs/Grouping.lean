import ValidatorGen.Proofs.FirstPieces
import ValidatorGen.Proofs.Keys

/-!
# Which declarations belong to one type

A declaration stands at a *site*: in a file, inside the declarations around it. Its path leads from
the outermost declaration around it down to the declaration itself. In the table all that is known
of a site is the key of its piece, one text with marks in it. If names and namespaces contain none
of the marks, the whole path is read back from the key, so that the table groups declarations by
their paths and by nothing else.

Sites are listed by a recursion of their own, which remembers the declarations around a declaration.
The table is built by another one, which remembers only the key of the type around it. That both
make the same pieces in the same order is shown first; from then on a piece can be asked where it
comes from.

Main results:

* `Compilation.map_piece_sites` — the sites of a program make the pieces of its table;
* `TypeHead.sameName_of_keyIn_eq` — keys made of heads nested in each other tell these heads;
* `Site.key_eq_iff` — pieces have the same key exactly if their sites have the same path;
* `SymbolTable.groupsByPath_ofCompilation` — grouping by paths is exact, and a type has the
  namespace, names and arities of the paths that lead to it.
-/

namespace ValidatorGen

/-! ## Sites -/

/-- A declaration with the declarations around it, outermost first. -/
structure Site where
  path : String
  around : List TypeHead
  head : TypeHead
  nested : List TypeHead

namespace Site

/-- The heads from the outermost declaration down to the declaration itself. -/
def heads (d : Site) : List TypeHead :=
  d.around ++ [d.head]

/-- The namespace written on the outermost declaration; an empty one is none. -/
def namespace? (d : Site) : Option String :=
  (d.around.headD d.head).ownNamespace?

/-- The names and arities from the outermost declaration down to the declaration itself. -/
def steps (d : Site) : List (String × Nat) :=
  d.heads.map fun t => (t.name, t.arity)

/-- Whether two declarations have the same namespace, names and arities. Only the namespace of the
outermost declaration is looked at, and an empty one counts as none. -/
def SamePath (d e : Site) : Prop :=
  d.namespace? = e.namespace? ∧ d.steps = e.steps

instance (d e : Site) : Decidable (d.SamePath e) :=
  inferInstanceAs (Decidable (_ ∧ _))

/-- The piece that the declaration makes. -/
def piece (d : Site) : Piece :=
  .ofHead d.path (TypeHead.keysIn none d.around).getLast? d.head d.nested

end Site

namespace TypeDeclaration

mutual

/-- The sites of a declaration and of all that is nested in it. -/
def sites (path : String) (around : List TypeHead) : TypeDeclaration → List Site
  | ⟨t, nested⟩ => ⟨path, around, t, nested.map head⟩ :: allSites path (around ++ [t]) nested

/-- The sites of declarations that stand side by side. -/
def allSites (path : String) (around : List TypeHead) : List TypeDeclaration → List Site
  | [] => []
  | d :: rest => sites path around d ++ allSites path around rest

end

end TypeDeclaration

/-- All declarations of a program, file by file, each before those nested in it. -/
def Compilation.sites (c : Compilation) : List Site :=
  c.files.flatMap fun file => TypeDeclaration.allSites file.path [] file.types

/-! ## The pieces of sites -/

namespace TypeHead

/-- One more head adds the key that it has in the type of the last one. -/
theorem keysIn_concat (parent : Option String) (around : List TypeHead) (t : TypeHead) :
    keysIn parent (around ++ [t]) =
      keysIn parent around ++ [t.keyIn ((keysIn parent around).getLast?.or parent)] := by
  induction around generalizing parent with
  | nil => rfl
  | cons a around ih =>
    have hLast : (keysIn (some (a.keyIn parent)) around).getLast?.or (some (a.keyIn parent)) =
        (keysIn parent (a :: around)).getLast?.or parent := by
      rw [keysIn_cons, List.getLast?_cons]
      cases (keysIn (some (a.keyIn parent)) around).getLast? <;> rfl
    rw [List.cons_append, keysIn_cons, ih, hLast, keysIn_cons, List.cons_append]

end TypeHead

namespace Site

/-- The key of a piece is the last one of its path. -/
theorem getLast?_keysIn_heads (d : Site) :
    (TypeHead.keysIn none d.heads).getLast? = some d.piece.key := by
  unfold heads
  rw [TypeHead.keysIn_concat, List.getLast?_concat, Option.or_none]
  rfl

end Site

namespace TypeDeclaration

mutual

/-- A declaration makes the pieces of its sites. -/
theorem map_piece_sites (path : String) (around : List TypeHead) :
    ∀ d : TypeDeclaration, (sites path around d).map Site.piece =
      Piece.ofDeclaration path (TypeHead.keysIn none around).getLast? d
  | ⟨t, nested⟩ => by
    -- what is nested in the declaration has its key around it
    have hKey : (TypeHead.keysIn none (around ++ [t])).getLast? =
        some (t.keyIn (TypeHead.keysIn none around).getLast?) := by
      rw [TypeHead.keysIn_concat, List.getLast?_concat, Option.or_none]
    rw [sites, Piece.ofDeclaration, List.map_cons, map_piece_allSites path (around ++ [t]) nested,
      hKey]
    rfl

/-- Declarations side by side make the pieces of their sites. -/
theorem map_piece_allSites (path : String) (around : List TypeHead) :
    ∀ ds : List TypeDeclaration, (allSites path around ds).map Site.piece =
      Piece.ofDeclarations path (TypeHead.keysIn none around).getLast? ds
  | [] => by
    rw [allSites, Piece.ofDeclarations, List.map_nil]
  | d :: rest => by
    rw [allSites, Piece.ofDeclarations, List.map_append, map_piece_sites path around d,
      map_piece_allSites path around rest]

end

mutual

/-- What is around a site is a declaration of its own. -/
theorem exists_site_of_mem_around (path : String) (around : List TypeHead) :
    ∀ d : TypeDeclaration, ∀ e ∈ sites path around d, ∀ t ∈ e.around,
      t ∈ around ∨ ∃ o ∈ sites path around d, o.head = t
  | ⟨a, nested⟩ => by
    intro e he t ht
    rw [sites] at he ⊢
    rcases List.mem_cons.1 he with rfl | he
    · exact Or.inl ht
    -- around a nested declaration stands what is around this one, and this one itself
    · rcases exists_site_of_mem_around_all path (around ++ [a]) nested e he t ht with
        hAround | ⟨o, ho, hHead⟩
      · rcases List.mem_append.1 hAround with hOuter | hSelf
        · exact Or.inl hOuter
        · exact Or.inr ⟨_, List.mem_cons_self, (List.mem_singleton.1 hSelf).symm⟩
      · exact Or.inr ⟨o, List.mem_cons_of_mem _ ho, hHead⟩

theorem exists_site_of_mem_around_all (path : String) (around : List TypeHead) :
    ∀ ds : List TypeDeclaration, ∀ e ∈ allSites path around ds, ∀ t ∈ e.around,
      t ∈ around ∨ ∃ o ∈ allSites path around ds, o.head = t
  | [] => by
    intro e he
    rw [allSites] at he
    exact absurd he List.not_mem_nil
  | d :: rest => by
    intro e he t ht
    rw [allSites] at he ⊢
    rcases List.mem_append.1 he with he | he
    · refine (exists_site_of_mem_around path around d e he t ht).imp_right ?_
      rintro ⟨o, ho, hHead⟩
      exact ⟨o, List.mem_append_left _ ho, hHead⟩
    · refine (exists_site_of_mem_around_all path around rest e he t ht).imp_right ?_
      rintro ⟨o, ho, hHead⟩
      exact ⟨o, List.mem_append_right _ ho, hHead⟩

end

end TypeDeclaration

namespace Compilation

/-- **The sites of a program make the pieces of its table.** -/
theorem map_piece_sites (c : Compilation) :
    c.sites.map Site.piece = (SymbolTable.ofCompilation c).pieces := by
  unfold sites SymbolTable.ofCompilation Piece.ofCompilation
  rw [List.map_flatMap]
  refine List.flatMap_congr fun file _ => ?_
  exact TypeDeclaration.map_piece_allSites file.path [] file.types

theorem piece_mem_of_mem_sites {c : Compilation} {d : Site} (h : d ∈ c.sites) :
    d.piece ∈ (SymbolTable.ofCompilation c).pieces := by
  rw [← c.map_piece_sites]
  exact List.mem_map_of_mem h

/-- What holds of the head of each site holds of all heads of its path. -/
theorem forall_mem_heads {c : Compilation} {P : TypeHead → Prop} (h : ∀ d ∈ c.sites, P d.head)
    {d : Site} (hd : d ∈ c.sites) : ∀ t ∈ d.heads, P t := by
  intro t ht
  obtain ⟨file, hFile, hSite⟩ := List.mem_flatMap.1 hd
  rcases List.mem_append.1 ht with hAround | hSelf
  · rcases TypeDeclaration.exists_site_of_mem_around_all file.path [] file.types d hSite t hAround
      with hNone | ⟨o, ho, rfl⟩
    · exact absurd hNone List.not_mem_nil
    · exact h o (List.mem_flatMap.2 ⟨file, hFile, ho⟩)
  · rw [List.mem_singleton.1 hSelf]
    exact h d hd

end Compilation

/-! ## Reading paths back from keys -/

/-- A mark before each part after the first one is a mark between any two parts. -/
theorem intercalate_mark_cons (mark : Char) (part : List Char) (parts : List (List Char)) :
    [mark].intercalate (part :: parts) = part ++ parts.flatMap (mark :: ·) := by
  induction parts generalizing part with
  | nil => simp
  | cons other parts ih =>
    rw [List.intercalate_cons_cons, ih, List.flatMap_cons, List.append_assoc]
    rfl

namespace TypeHead

/-- The key of the last one of heads nested in a type: what is written after the key of the type. -/
theorem toList_getLastD_keysIn (outer : String) (heads : List TypeHead) :
    ((keysIn (some outer) heads).getLast?.getD outer).toList =
      outer.toList ++ (heads.map (·.keyPart.toList)).flatMap ('+' :: ·) := by
  induction heads generalizing outer with
  | nil => simp [keysIn]
  | cons t heads ih =>
    have hLast : (keysIn (some outer) (t :: heads)).getLast?.getD outer =
        (keysIn (some (t.keyIn (some outer))) heads).getLast?.getD (t.keyIn (some outer)) := by
      rw [keysIn_cons, List.getLast?_cons]
      rfl
    rw [hLast, ih, toList_keyIn_some, List.map_cons, List.flatMap_cons, List.append_assoc]

/-- The text of the last key of heads nested in each other: that of the outermost head, then names
and arities. -/
theorem toList_getLast?_keysIn (t : TypeHead) (rest : List TypeHead) :
    (keysIn none (t :: rest)).getLast?.map String.toList =
      some (['+'].intercalate ((t.keyIn none).toList :: rest.map (·.keyPart.toList))) := by
  rw [keysIn_cons, List.getLast?_cons, Option.map_some, toList_getLastD_keysIn,
    intercalate_mark_cons]

/-- Parts of keys tell names and arities. -/
theorem map_eq_of_map_keyPart_eq {as bs : List TypeHead} (ha : ∀ t ∈ as, t.IsPlain)
    (hb : ∀ t ∈ bs, t.IsPlain)
    (h : as.map (·.keyPart.toList) = bs.map (·.keyPart.toList)) :
    as.map (fun t => (t.name, t.arity)) = bs.map fun t => (t.name, t.arity) := by
  induction as generalizing bs with
  | nil =>
    rw [List.map_nil] at h
    rw [List.map_eq_nil_iff.1 h.symm]
  | cons a as ih =>
    cases bs with
    | nil => cases h
    | cons b bs =>
      obtain ⟨hFirst, hRest⟩ := List.cons.inj h
      obtain ⟨hName, hArity⟩ :=
        keyPart_inj (ha a List.mem_cons_self).1 (hb b List.mem_cons_self).1 hFirst
      have hSame := ih (fun t ht => ha t (List.mem_cons_of_mem a ht))
        (fun t ht => hb t (List.mem_cons_of_mem b ht)) hRest
      rw [List.map_cons, List.map_cons, hName, hArity, hSame]

/-- **The key of the last one of heads nested in each other tells the namespace of the first one,
and all names and arities.** -/
theorem sameName_of_keyIn_eq {a b : TypeHead} {as bs : List TypeHead}
    (ha : ∀ t ∈ a :: as, t.IsPlain) (hb : ∀ t ∈ b :: bs, t.IsPlain)
    (h : (keysIn none (a :: as)).getLast? = (keysIn none (b :: bs)).getLast?) :
    a.SameName b ∧ as.map (fun t => (t.name, t.arity)) = bs.map fun t => (t.name, t.arity) := by
  have hPlus : ∀ {t : TypeHead} {rest : List TypeHead}, (∀ u ∈ t :: rest, u.IsPlain) →
      ∀ part ∈ (t.keyIn none).toList :: rest.map (·.keyPart.toList), '+' ∉ part := by
    intro t rest hPlain part hPart
    rcases List.mem_cons.1 hPart with rfl | hPart
    · exact (hPlain t List.mem_cons_self).plus_notMem_keyIn_none
    · obtain ⟨u, hu, rfl⟩ := List.mem_map.1 hPart
      exact (hPlain u (List.mem_cons_of_mem t hu)).plus_notMem_keyPart
  -- the parts of a key stand between the plus signs
  have hText := congrArg (Option.map String.toList) h
  rw [toList_getLast?_keysIn, toList_getLast?_keysIn] at hText
  have hSplit := congrArg (List.splitOn '+') (Option.some.inj hText)
  rw [List.splitOn_intercalate '+' (hPlus ha) (List.cons_ne_nil _ _),
    List.splitOn_intercalate '+' (hPlus hb) (List.cons_ne_nil _ _)] at hSplit
  obtain ⟨hFirst, hRest⟩ := List.cons.inj hSplit
  refine ⟨keyIn_none_inj (ha a List.mem_cons_self) (hb b List.mem_cons_self)
    (String.toList_injective hFirst), ?_⟩
  exact map_eq_of_map_keyPart_eq (fun t ht => ha t (List.mem_cons_of_mem a ht))
    (fun t ht => hb t (List.mem_cons_of_mem b ht)) hRest

/-- The same for all heads at once. -/
theorem eq_of_getLast?_keysIn_eq {as bs : List TypeHead} (ha : ∀ t ∈ as, t.IsPlain)
    (hb : ∀ t ∈ bs, t.IsPlain) {key : String} (hKey : (keysIn none as).getLast? = some key)
    (hKey' : (keysIn none bs).getLast? = some key) :
    as.head?.map ownNamespace? = bs.head?.map ownNamespace? ∧
      as.map (fun t => (t.name, t.arity)) = bs.map fun t => (t.name, t.arity) := by
  cases as with
  | nil => cases hKey
  | cons a as =>
    cases bs with
    | nil => cases hKey'
    | cons b bs =>
      obtain ⟨⟨hNamespace, hName, hArity⟩, hRest⟩ :=
        sameName_of_keyIn_eq ha hb (hKey.trans hKey'.symm)
      refine ⟨congrArg some hNamespace, ?_⟩
      rw [List.map_cons, List.map_cons, hName, hArity, hRest]

end TypeHead

namespace Site

variable {d e : Site}

theorem head?_heads (d : Site) : d.heads.head? = some (d.around.headD d.head) := by
  unfold heads
  cases d.around <;> rfl

/-- **Pieces have the same key exactly if their sites have the same path.** -/
theorem key_eq_iff (hd : ∀ t ∈ d.heads, t.IsPlain) (he : ∀ t ∈ e.heads, t.IsPlain) :
    d.piece.key = e.piece.key ↔ d.SamePath e := by
  constructor
  · intro hKey
    have hLast := d.getLast?_keysIn_heads
    rw [hKey] at hLast
    obtain ⟨hNamespace, hSteps⟩ :=
      TypeHead.eq_of_getLast?_keysIn_eq hd he hLast e.getLast?_keysIn_heads
    rw [head?_heads, head?_heads] at hNamespace
    exact ⟨Option.some.inj hNamespace, hSteps⟩
  · rintro ⟨hNamespace, hSteps⟩
    -- equal names and arities write equal parts of a key
    have hParts : d.heads.map TypeHead.keyPart = e.heads.map TypeHead.keyPart := by
      have hWritten := congrArg (List.map fun step : String × Nat => step.1 ++ "`" ++ step.2.repr)
        hSteps
      unfold steps at hWritten
      rw [List.map_map, List.map_map] at hWritten
      exact hWritten
    have hKeys : TypeHead.keysIn none d.heads = TypeHead.keysIn none e.heads :=
      TypeHead.keysIn_congr hParts fun _ => by
        rw [head?_heads, head?_heads]
        exact congrArg some hNamespace
    have hLast := d.getLast?_keysIn_heads
    rw [hKeys, e.getLast?_keysIn_heads] at hLast
    exact (Option.some.inj hLast).symm

end Site

/-! ## The numbers of types -/

namespace SymbolTable

variable {t : SymbolTable} {p q : Piece} {s : Symbol}

/-- The number of the type that a piece belongs to: its place among the types. -/
def symbolId (t : SymbolTable) (p : Piece) : Nat :=
  t.keys.idxOf p.key

/-- **A piece is one of the pieces of the type with its number.** -/
theorem exists_symbol_of_symbolId (hp : p ∈ t.pieces) :
    ∃ s, t.symbols[t.symbolId p]? = some s ∧ t.symbol? p.key = some s ∧ p ∈ s.pieces := by
  have hKey : p.key ∈ t.keys := mem_keys_iff.2 ⟨p, hp, rfl⟩
  obtain ⟨s, hs⟩ := exists_symbol?_of_mem_keys hKey
  refine ⟨s, ?_, hs, ?_⟩
  -- the list of types is that of the keys, so the place of the key is that of the type
  · have hPlace := congrArg (·[t.symbolId p]?) t.map_symbol?_keys
    unfold symbolId at hPlace ⊢
    simp only [List.getElem?_map, List.getElem?_idxOf hKey, Option.map_some, hs] at hPlace
    cases hFound : t.symbols[t.keys.idxOf p.key]? with
    | none =>
      rw [hFound] at hPlace
      cases hPlace
    | some r =>
      rw [hFound] at hPlace
      exact (Option.some.inj hPlace).symm
  · rw [← symbol?_eq_some_iff.1 hs]
    exact List.mem_filter.2 ⟨hp, decide_eq_true rfl⟩

/-- Pieces belong to the same type exactly if they have the same key. -/
theorem symbolId_eq_iff (hp : p ∈ t.pieces) : t.symbolId p = t.symbolId q ↔ p.key = q.key :=
  List.idxOf_inj (mem_keys_iff.2 ⟨p, hp, rfl⟩)

/-- Whether a type has the namespace, names and arities of the path to a site. -/
structure Follows (t : SymbolTable) (s : Symbol) (d : Site) : Prop where
  inNamespace : t.namespace? s = d.namespace?
  names : (t.chain s).map Symbol.name = d.steps.map Prod.fst
  arities : (t.chain s).map Symbol.arity = d.steps.map Prod.snd
  nestedName : t.nestedName s = ".".intercalate (d.steps.map Prod.fst)

/-- A type follows the path to a site whose piece has its key. -/
theorem Nested.follows (h : t.Nested) (hs : s.first ∈ t.pieces)
    (hPlain : ∀ p ∈ t.pieces, p.head.IsPlain) {d : Site} (hd : ∀ u ∈ d.heads, u.IsPlain)
    (hKey : s.key = d.piece.key) : t.Follows s d := by
  have hLinks : ∀ u ∈ (t.chain s).map (·.first.head), u.IsPlain := by
    intro u hu
    obtain ⟨link, hLink, rfl⟩ := List.mem_map.1 hu
    exact hPlain link.first (first_mem_of_mem_chain hs link hLink)
  -- the last link of the chain is the type itself
  have hLast : (TypeHead.keysIn none ((t.chain s).map (·.first.head))).getLast? =
      some d.piece.key := by
    rw [← h.keys_chain hs, List.getLast?_map, getLast?_chain]
    exact congrArg some hKey
  obtain ⟨hNamespace, hSteps⟩ :=
    TypeHead.eq_of_getLast?_keysIn_eq hLinks hd hLast d.getLast?_keysIn_heads
  rw [List.map_map] at hSteps
  have hNames := congrArg (List.map Prod.fst) hSteps
  have hArities := congrArg (List.map Prod.snd) hSteps
  rw [List.map_map] at hNames hArities
  have hNames : (t.chain s).map Symbol.name = d.steps.map Prod.fst := hNames
  refine ⟨?_, hNames, hArities, ?_⟩
  · rw [List.head?_map, head?_chain, d.head?_heads] at hNamespace
    exact Option.some.inj hNamespace
  · rw [nestedName, hNames]

/-- Whether a table has the pieces of sites, grouped by the paths to the sites. The second field
says in which type each site ends up and what is known of that type, the third that two sites end up
in one type exactly if they have one path. -/
structure GroupsByPath (t : SymbolTable) (sites : List Site) : Prop where
  pieces : sites.map Site.piece = t.pieces
  /-- The type with the number of a piece has the piece, and follows the path to its site. -/
  follows : ∀ d ∈ sites, ∃ s, t.symbols[t.symbolId d.piece]? = some s ∧ d.piece ∈ s.pieces ∧
    t.Follows s d
  /-- Pieces belong to one type exactly if their sites have the same path. -/
  symbolId_eq_iff : ∀ d ∈ sites, ∀ e ∈ sites,
    t.symbolId d.piece = t.symbolId e.piece ↔ d.SamePath e

/-- **Grouping by paths is exact.** In a program whose names and namespaces contain no marks, two
declarations belong to the same type if and only if their outermost declarations have the same
namespace and their paths the same names and arities, and that type has the namespace, the names
and the arities of the path. A namespace written on a nested declaration is not part of its path. -/
theorem groupsByPath_ofCompilation {c : Compilation} (hPlain : ∀ d ∈ c.sites, d.head.IsPlain) :
    (ofCompilation c).GroupsByPath c.sites := by
  have hPieces : ∀ p ∈ (ofCompilation c).pieces, p.head.IsPlain := by
    intro p hp
    rw [← c.map_piece_sites] at hp
    obtain ⟨d, hd, rfl⟩ := List.mem_map.1 hp
    exact hPlain d hd
  have hHeads : ∀ d ∈ c.sites, ∀ u ∈ d.heads, u.IsPlain := fun d hd =>
    Compilation.forall_mem_heads hPlain hd
  -- first, what the type of a declaration is made of; then, which declarations share it
  refine ⟨c.map_piece_sites, fun d hd => ?_, fun d hd e he => ?_⟩
  · obtain ⟨s, hFound, hSymbol, hMem⟩ :=
      exists_symbol_of_symbolId (Compilation.piece_mem_of_mem_sites hd)
    have hFirst : s.first ∈ (ofCompilation c).pieces := first_mem_of_symbol? hSymbol
    have hKey : s.key = d.piece.key := key_of_symbol? hSymbol
    exact ⟨s, hFound, hMem,
      (nested_ofCompilation c).follows hFirst hPieces (hHeads d hd) hKey⟩
  · rw [symbolId_eq_iff (Compilation.piece_mem_of_mem_sites hd)]
    exact Site.key_eq_iff (hHeads d hd) (hHeads e he)

/-- A generic class in a class that is declared in two files. In the first one a namespace of its
own is written on the nested class. -/
theorem groupsByPath_sheds :
    let shed : TypeHead := { (default : TypeHead) with name := "Shed", inNamespace := some "Depot" }
    let box : TypeHead := { (default : TypeHead) with name := "Box", typeParameters := ["T"] }
    let strayBox : TypeHead := { box with inNamespace := some "Garage" }
    let c : Compilation :=
      ⟨[⟨"Shed.cs", [⟨shed, [⟨strayBox, []⟩]⟩]⟩, ⟨"Box.cs", [⟨shed, [⟨box, []⟩]⟩, ⟨box, []⟩]⟩]⟩
    (∀ d ∈ c.sites, d.head.IsPlain) ∧ (ofCompilation c).GroupsByPath c.sites ∧
      (ofCompilation c).symbolId (Site.piece ⟨"Shed.cs", [shed], strayBox, []⟩) =
        (ofCompilation c).symbolId (Site.piece ⟨"Box.cs", [shed], box, []⟩) := by
  intro shed box strayBox c
  have hPlain : ∀ d ∈ c.sites, d.head.IsPlain := by decide
  have hGroups : (ofCompilation c).GroupsByPath c.sites := groupsByPath_ofCompilation hPlain
  refine ⟨hPlain, hGroups, (hGroups.symbolId_eq_iff _ ?_ _ ?_).2 (by decide)⟩
  · exact List.mem_cons_of_mem _ List.mem_cons_self
  · exact List.mem_cons_of_mem _
      (List.mem_cons_of_mem _ (List.mem_cons_of_mem _ List.mem_cons_self))

end SymbolTable

end ValidatorGen

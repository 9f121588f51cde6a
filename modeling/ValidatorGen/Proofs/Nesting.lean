import ValidatorGen.Proofs.SameForm
import Mathlib.Data.List.Chain

/-!
# How the types of a program are nested

The pieces of a program are made from the outside in. So the key of a piece is made of its head and
of the key of the type around it, and that type is a type of the program too: nothing is nested in a
type that is not there. The types around a type form a chain of links, from a type that is nested
in none down to the type itself, with longer and longer keys.

A table itself does not know this. It is a list of pieces with keys, and a table that is made up
could name a type around a piece that it does not have, or give a piece a key that has nothing to do
with its head. What holds of the tables of programs is collected in `SymbolTable.Nested`, and the
results on chains ask for no more. Lengths decide that a chain comes to an end: the key of a nested
type begins with that of the type around it and is longer.

Main results:

* `SymbolTable.nested_ofCompilation` — the table of a program is nested in this sense;
* `SymbolTable.Nested.key_enclosing?` — the first piece of a type tells the type around it;
* `SymbolTable.Nested.linked_chain`, `SymbolTable.Nested.nodup_keys_chain` — the chain of a type;
* `SymbolTable.Nested.keys_chain` — the keys of its links are made of names, arities and namespace.
-/

namespace ValidatorGen

/-! ## The keys of pieces -/

/-- The name of a level with its arity, as it stands in keys. -/
def Level.keyPart (l : Level) : String :=
  l.name ++ "`" ++ l.typeParameters.length.repr

namespace TypeHead

/-- The keys of heads nested in each other, of which the first one is in the type of a key if there
is one. Each head has the key before it around it. -/
def keysIn (parent : Option String) : List TypeHead → List String
  | [] => []
  | t :: rest => t.keyIn parent :: keysIn (some (t.keyIn parent)) rest

@[simp]
theorem keysIn_cons (parent : Option String) (t : TypeHead) (rest : List TypeHead) :
    keysIn parent (t :: rest) = t.keyIn parent :: keysIn (some (t.keyIn parent)) rest := rfl

/-- Outside of all types a key has a namespace in it, in a type only names and arities. -/
theorem keyIn_congr {a b : TypeHead} {parent : Option String} (hPart : a.keyPart = b.keyPart)
    (hNamespace : parent = none → a.ownNamespace? = b.ownNamespace?) :
    a.keyIn parent = b.keyIn parent := by
  unfold keyIn
  cases parent with
  | none =>
    show a.ownNamespace?.getD "" ++ "::" ++ a.keyPart = b.ownNamespace?.getD "" ++ "::" ++ b.keyPart
    rw [hPart, hNamespace rfl]
  | some outer =>
    show outer ++ "+" ++ a.keyPart = outer ++ "+" ++ b.keyPart
    rw [hPart]

/-- **Names and arities make the keys**, together with the namespace of the outermost head. -/
theorem keysIn_congr {heads heads' : List TypeHead} {parent : Option String}
    (hParts : heads.map keyPart = heads'.map keyPart)
    (hNamespace : parent = none →
      heads.head?.map ownNamespace? = heads'.head?.map ownNamespace?) :
    keysIn parent heads = keysIn parent heads' := by
  induction heads generalizing heads' parent with
  | nil =>
    rw [List.map_nil] at hParts
    rw [List.map_eq_nil_iff.1 hParts.symm]
  | cons a rest ih =>
    cases heads' with
    | nil => cases hParts
    | cons b rest' =>
      obtain ⟨hPart, hRest⟩ := List.cons.inj hParts
      have hKey : a.keyIn parent = b.keyIn parent :=
        keyIn_congr hPart fun hNone => Option.some.inj (hNamespace hNone)
      have hInner : keysIn (some (b.keyIn parent)) rest = keysIn (some (b.keyIn parent)) rest' :=
        ih hRest fun hNone => absurd hNone (Option.some_ne_none _)
      rw [keysIn_cons, keysIn_cons, hKey, hInner]

end TypeHead

namespace Piece

/-- Whether the key of a piece is made of its head and the key of the type around it. -/
def IsKeyed (p : Piece) : Prop :=
  p.key = p.head.keyIn p.parent

/-- Whether a key is that of a type among the pieces, or of the type that they are all in. While the
pieces of a file are made, what is around the outermost ones is not among them yet. -/
def Knows (parent : Option String) (ps : List Piece) (outer : String) : Prop :=
  outer ∈ parent ∨ ∃ q ∈ ps, q.key = outer

theorem Knows.mono {parent : Option String} {ps qs : List Piece} {outer : String}
    (h : Knows parent ps outer) (hSub : ps ⊆ qs) : Knows parent qs outer :=
  h.imp_right fun ⟨q, hq, hKey⟩ => ⟨q, hSub hq, hKey⟩

/-- Whether pieces are made from the outside in, and what is around them is there. This is what the
recursion over declarations preserves. -/
def AllNested (parent : Option String) (ps : List Piece) : Prop :=
  ∀ p ∈ ps, p.IsKeyed ∧ ∀ outer ∈ p.parent, Knows parent ps outer

/-- **The pieces of declarations are nested in pieces that are there.** -/
theorem allNested_ofDeclarations (path : String) (parent : Option String)
    (ds : List TypeDeclaration) : AllNested parent (ofDeclarations path parent ds) := by
  revert parent ds
  refine ofDeclarations_induction ?nil ?node ?append
  case nil =>
    intro parent p hp
    exact absurd hp List.not_mem_nil
  case node =>
    intro parent head nested ps hps p hp
    rcases List.mem_cons.1 hp with rfl | hp
    · exact ⟨rfl, fun outer hOuter => Or.inl hOuter⟩
    · obtain ⟨hKey, hKnows⟩ := hps p hp
      refine ⟨hKey, fun outer hOuter => Or.inr ?_⟩
      -- what is nested directly in the declaration has its key around it
      rcases hKnows outer hOuter with hSelf | ⟨q, hq, hSame⟩
      · exact ⟨_, List.mem_cons_self, Option.some.inj hSelf⟩
      · exact ⟨q, List.mem_cons_of_mem _ hq, hSame⟩
  case append =>
    intro parent ps qs hps hqs p hp
    rcases List.mem_append.1 hp with hp | hp
    · obtain ⟨hKey, hKnows⟩ := hps p hp
      exact ⟨hKey, fun outer hOuter => (hKnows outer hOuter).mono (List.subset_append_left ps qs)⟩
    · obtain ⟨hKey, hKnows⟩ := hqs p hp
      exact ⟨hKey, fun outer hOuter => (hKnows outer hOuter).mono (List.subset_append_right ps qs)⟩

end Piece

namespace SymbolTable

theorem mem_keys_iff {t : SymbolTable} {key : String} :
    key ∈ t.keys ↔ ∃ p ∈ t.pieces, p.key = key := by
  rw [keys, List.mem_eraseDups, List.mem_map]

/-- The first piece of a type is a piece of its table. -/
theorem first_mem_of_symbol? {t : SymbolTable} {key : String} {s : Symbol}
    (h : t.symbol? key = some s) : s.first ∈ t.pieces := by
  have hMem : s.first ∈ t.piecesOf key := by
    rw [symbol?_eq_some_iff.1 h]
    exact List.mem_cons_self
  exact List.mem_of_mem_filter hMem

theorem first_mem_of_mem_symbols {t : SymbolTable} {s : Symbol} (h : s ∈ t.symbols) :
    s.first ∈ t.pieces := by
  obtain ⟨key, -, hSymbol⟩ := List.mem_filterMap.1 h
  exact first_mem_of_symbol? hSymbol

theorem first_mem_of_mem_candidates {t : SymbolTable} {known : KnownSymbols} {s : Symbol}
    (h : s ∈ t.candidates known) : s.first ∈ t.pieces :=
  first_mem_of_mem_symbols (List.mem_filter.1 h).1

/-- There is a type of each key in use. -/
theorem exists_symbol?_of_mem_keys {t : SymbolTable} {key : String} (h : key ∈ t.keys) :
    ∃ s, t.symbol? key = some s := by
  obtain ⟨p, hp, hKey⟩ := mem_keys_iff.1 h
  have hMem : p ∈ t.piecesOf key := List.mem_filter.2 ⟨hp, decide_eq_true hKey⟩
  rw [symbol?]
  cases hPieces : t.piecesOf key with
  | nil =>
    rw [hPieces] at hMem
    exact absurd hMem List.not_mem_nil
  | cons first rest => exact ⟨⟨first, rest⟩, rfl⟩

theorem exists_mem_symbols_of_mem_keys {t : SymbolTable} {key : String} (h : key ∈ t.keys) :
    ∃ s ∈ t.symbols, s.key = key := by
  obtain ⟨s, hs⟩ := exists_symbol?_of_mem_keys h
  exact ⟨s, List.mem_filterMap.2 ⟨key, h, hs⟩, key_of_symbol? hs⟩

/-- Tables in which all keys are made from the outside in, and what is around a piece is there. It
is the invariant of tables that are made of programs. -/
structure Nested (t : SymbolTable) : Prop where
  keyed : ∀ p ∈ t.pieces, p.IsKeyed
  parents : ∀ p ∈ t.pieces, ∀ outer ∈ p.parent, outer ∈ t.keys

/-- **The table of a program is nested.** -/
theorem nested_ofCompilation (c : Compilation) : (ofCompilation c).Nested := by
  have hPieces : ∀ p ∈ (ofCompilation c).pieces, ∃ file ∈ c.files,
      p ∈ Piece.ofDeclarations file.path none file.types := fun p hp => List.mem_flatMap.1 hp
  constructor
  · intro p hp
    obtain ⟨file, -, hp⟩ := hPieces p hp
    exact (Piece.allNested_ofDeclarations file.path none file.types p hp).1
  · intro p hp outer hOuter
    obtain ⟨file, hFile, hp⟩ := hPieces p hp
    rcases (Piece.allNested_ofDeclarations file.path none file.types p hp).2 outer hOuter with
      hNone | ⟨q, hq, hKey⟩
    · cases hNone
    · exact mem_keys_iff.2 ⟨q, List.mem_flatMap.2 ⟨file, hFile, hq⟩, hKey⟩

/-! ## The chain of a type -/

/-- Types each of which is nested in the one before it; the first one is nested in the type of a
key, if there is a key. A chain is linked in this sense from no key on. -/
def Linked (parent : Option String) (links : List Symbol) : Prop :=
  (∀ outermost ∈ links.head?, outermost.first.parent = parent) ∧
    links.IsChain fun outer inner => inner.first.parent = some outer.key

theorem linked_cons_iff {parent : Option String} {link : Symbol} {rest : List Symbol} :
    Linked parent (link :: rest) ↔
      link.first.parent = parent ∧ Linked (some link.key) rest := by
  simp only [Linked, List.head?_cons, Option.mem_some, forall_eq', List.isChain_cons]

theorem linked_singleton_iff {parent : Option String} {link : Symbol} :
    Linked parent [link] ↔ link.first.parent = parent := by
  simp [Linked]

/-- A type can follow the one in which it is nested. -/
theorem Linked.concat {parent : Option String} {links : List Symbol} {last s : Symbol}
    (h : Linked parent links) (hLast : links.getLast? = some last)
    (hs : s.first.parent = some last.key) : Linked parent (links ++ [s]) := by
  refine ⟨?_, List.isChain_append.2 ⟨h.2, List.isChain_singleton s, ?_⟩⟩
  · cases links with
    | nil => cases hLast
    | cons first rest => exact h.1
  · rw [hLast]
    rintro _ ⟨⟩ _ ⟨⟩
    exact hs

/-- Linked types have longer and longer keys. Being nested makes a key longer than the one around
it, and that is transitive. -/
theorem Linked.pairwise_length {parent : Option String} {links : List Symbol}
    (h : Linked parent links) :
    links.Pairwise fun outer inner => outer.key.length < inner.key.length :=
  List.isChain_iff_pairwise.1 (h.2.imp fun outer inner hParent =>
    inner.first.parent_lt outer.key hParent)

theorem Linked.nodup_keys {parent : Option String} {links : List Symbol}
    (h : Linked parent links) : (links.map Symbol.key).Nodup :=
  List.pairwise_map.2 (h.pairwise_length.imp fun hLonger hSame => by
    rw [hSame] at hLonger
    exact Nat.lt_irrefl _ hLonger)

/-- Linked types have the keys of their heads, nested in each other. -/
theorem Linked.keys_eq {parent : Option String} {links : List Symbol} (h : Linked parent links)
    (hKeyed : ∀ link ∈ links, link.first.IsKeyed) :
    links.map Symbol.key = TypeHead.keysIn parent (links.map (·.first.head)) := by
  induction links generalizing parent with
  | nil => rfl
  | cons link rest ih =>
    obtain ⟨hParent, hRest⟩ := linked_cons_iff.1 h
    have hKey : link.key = link.first.head.keyIn parent := by
      rw [← hParent]
      exact hKeyed link List.mem_cons_self
    have hInner := ih hRest fun other hOther => hKeyed other (List.mem_cons_of_mem link hOther)
    rw [List.map_cons, List.map_cons, TypeHead.keysIn_cons, hInner, ← hKey]

variable {t : SymbolTable} {s outer : Symbol}

/-- The outermost link of a chain has the namespace. -/
theorem head?_chain (t : SymbolTable) (s : Symbol) : (t.chain s).head? = some (t.outermost s) := by
  unfold chain outermost
  cases t.ancestors s <;> rfl

/-- The innermost link of a chain is the type itself. -/
theorem getLast?_chain (t : SymbolTable) (s : Symbol) : (t.chain s).getLast? = some s := by
  unfold chain
  exact List.getLast?_concat

/-- The chain of a type goes through the chain of the type around it. This is the step of every
induction over chains. -/
theorem chain_of_enclosing? (h : t.enclosing? s = some outer) :
    t.chain s = t.chain outer ++ [s] := by
  rw [chain, ancestors_of_enclosing? h, chain]

theorem chain_of_enclosing?_eq_none (h : t.enclosing? s = none) : t.chain s = [s] := by
  rw [chain, ancestors_of_enclosing?_eq_none h, List.nil_append]

/-- The types around a type are types of the table. -/
theorem first_mem_of_mem_chain (hs : s.first ∈ t.pieces) :
    ∀ link ∈ t.chain s, link.first ∈ t.pieces := by
  induction s using ancestors.induct t with
  | case1 s hOuter =>
    rw [chain_of_enclosing?_eq_none hOuter]
    simpa using hs
  | case2 s outer hOuter ih =>
    obtain ⟨key, -, hSymbol⟩ := Option.bind_eq_some_iff.1 hOuter
    rw [chain_of_enclosing? hOuter]
    intro link hLink
    -- a link of the chain around, or the type itself at its end
    rcases List.mem_append.1 hLink with hLink | hLink
    · exact ih (first_mem_of_symbol? hSymbol) link hLink
    · rwa [List.mem_singleton.1 hLink]

namespace Nested

/-- **The first piece of a type tells the type around it.** -/
theorem key_enclosing? (h : t.Nested) (hs : s.first ∈ t.pieces) :
    (t.enclosing? s).map Symbol.key = s.first.parent := by
  rw [enclosing?]
  cases hParent : s.first.parent with
  | none => rfl
  | some outer =>
    obtain ⟨r, hr⟩ := exists_symbol?_of_mem_keys (h.parents s.first hs outer hParent)
    rw [Option.bind_some, hr]
    exact congrArg some (key_of_symbol? hr)

/-- **The types around a type, and the type, are linked.** By induction along the types around it: a
type without one is a chain of its own, and any other is put at the end of the chain around it. -/
theorem linked_chain (h : t.Nested) (hs : s.first ∈ t.pieces) : Linked none (t.chain s) := by
  induction s using ancestors.induct t with
  | case1 s hOuter =>
    have hKey := h.key_enclosing? hs
    rw [hOuter] at hKey
    rw [chain_of_enclosing?_eq_none hOuter]
    exact linked_singleton_iff.2 hKey.symm
  | case2 s outer hOuter ih =>
    have hKey := h.key_enclosing? hs
    rw [hOuter] at hKey
    obtain ⟨key, -, hSymbol⟩ := Option.bind_eq_some_iff.1 hOuter
    rw [chain_of_enclosing? hOuter]
    exact (ih (first_mem_of_symbol? hSymbol)).concat (List.getLast?_concat) hKey.symm

/-- No type is in the chain of a type twice. -/
theorem nodup_keys_chain (h : t.Nested) (hs : s.first ∈ t.pieces) :
    ((t.chain s).map Symbol.key).Nodup :=
  (h.linked_chain hs).nodup_keys

/-- **The keys in the chain of a type** are those of its heads, nested in each other. So names,
arities and the outermost namespace tell them all. -/
theorem keys_chain (h : t.Nested) (hs : s.first ∈ t.pieces) :
    (t.chain s).map Symbol.key = TypeHead.keysIn none ((t.chain s).map (·.first.head)) :=
  (h.linked_chain hs).keys_eq fun link hLink =>
    h.keyed link.first (first_mem_of_mem_chain hs link hLink)

end Nested

end SymbolTable

end ValidatorGen

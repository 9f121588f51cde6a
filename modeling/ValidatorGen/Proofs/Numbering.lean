import ValidatorGen.Proofs.Grouping
import ValidatorGen.Proofs.Registration
import ValidatorGen.Proofs.Reopening
import ValidatorGen.Proofs.SourceOrder

/-!
# The numbers of types and pieces

A table finds all that belongs to a type by keys; a registry is kept up to date piece by piece and
finds it by numbers. Both know the same: with every piece that comes to the table, the registry that
can be read off it changes as the registry does to which the piece is added. So what is proved about
the numbers in a registry holds of the table, and the other way round.

The table is what a pass works with: there a type is found by filtering all pieces by its key, and
the chain of a type by following keys. The registry is how a program is gone through. Reading a
registry off a table means numbering: a type has the place of its key among the keys, a piece its
place among the pieces. What has to be shown is that one piece more changes both sides alike, in the
two cases that the key of the piece is there or is new. In the second case the types that are there
must not change, and for this the types around pieces have to be there already
(`SymbolTable.Closed`), since a type around a piece that comes later would change the namespace of
the piece.

Main results:

* `SymbolTable.registry_append` — one piece more;
* `SymbolTable.ofPieces_eq_registry` — the registry of pieces is read off their table;
* `SymbolTable.chain_number` — the loop over numbers collects the chain of a type;
* `SymbolTable.numberedBy_ofCompilation` — the table of a program, represented by numbers.
-/

namespace ValidatorGen

/-- What is found at the places where a test holds is what the test keeps. -/
theorem map_getElem?_findIdxs {α : Type} (q : α → Bool) (xs : List α) :
    (xs.findIdxs q).map (xs[·]?) = (xs.filter q).map some := by
  refine List.ext_getElem ?_ fun i h h' => ?_
  · rw [List.length_map, List.length_map, List.length_findIdxs, List.countP_eq_length_filter]
  · rw [List.length_map] at h h'
    rw [List.getElem_map, List.getElem_map, List.getElem_filter_eq_getElem_getElem_findIdxs h',
      List.getElem?_eq_getElem]

namespace SymbolTable

/-! ## The registry of a table -/

/-- The number of a type: its place among the types. Types stand in the order of their first pieces,
which is the order of their keys. -/
def number (t : SymbolTable) (s : Symbol) : Nat :=
  t.keys.idxOf s.key

/-- A type of a table as it is registered. Each of the fields is what the table finds for the type,
written with numbers in place of types and pieces. -/
def entry (t : SymbolTable) (s : Symbol) : Registry.Entry where
  key := s.key
  name := s.name
  inNamespace := t.namespace? s
  arity := s.arity
  containing := (t.enclosing? s).map t.number
  pieces := t.pieces.findIdxs (·.key = s.key)

/-- What a table knows, by numbers. -/
def registry (t : SymbolTable) : Registry where
  arena := t.pieces.map fun p => ⟨p, t.symbolId p⟩
  entries := t.symbols.map t.entry

variable {t : SymbolTable} {s r outer : Symbol} {p : Piece}

/-- The types stand at the places of their keys. -/
theorem map_key_symbols (t : SymbolTable) : t.symbols.map Symbol.key = t.keys := by
  have hKeys : ∀ key ∈ t.keys, (t.symbol? key).map Symbol.key = some key := by
    intro key hKey
    obtain ⟨s, hs⟩ := exists_symbol?_of_mem_keys hKey
    rw [hs]
    exact congrArg some (key_of_symbol? hs)
  have hSome : (t.symbols.map Symbol.key).map some = t.keys.map some := by
    rw [List.map_map, ← List.map_congr_left hKeys]
    have hFound := congrArg (List.map (Option.map Symbol.key)) t.map_symbol?_keys
    rw [List.map_map, List.map_map] at hFound
    exact hFound.symm
  exact List.map_injective_iff.2 (Option.some_injective _) hSome

theorem symbol?_of_mem_symbols (hs : s ∈ t.symbols) : t.symbol? s.key = some s := by
  obtain ⟨key, -, hSymbol⟩ := List.mem_filterMap.1 hs
  rwa [key_of_symbol? hSymbol]

theorem getElem?_number (hs : t.symbol? s.key = some s) : t.symbols[t.number s]? = some s := by
  obtain ⟨found, hPlace, hFound, -⟩ := exists_symbol_of_symbolId (first_mem_of_symbol? hs)
  obtain rfl : found = s := Option.some.inj (hFound.symm.trans hs)
  exact hPlace

theorem getElem?_entries_number (hs : t.symbol? s.key = some s) :
    t.registry.entries[t.number s]? = some (t.entry s) := by
  show (t.symbols.map t.entry)[t.number s]? = _
  rw [List.getElem?_map, getElem?_number hs]
  rfl

theorem keys_registry (t : SymbolTable) : t.registry.keys = t.keys := by
  rw [← t.map_key_symbols]
  unfold Registry.keys registry
  rw [List.map_map]
  rfl

theorem idOf_registry (t : SymbolTable) (key : String) :
    t.registry.idOf key = t.keys.idxOf key := by
  rw [Registry.idOf, keys_registry]

/-- **The numbers that are listed for a type are those of its pieces**, in their order. -/
theorem map_getElem?_pieces_entry (hs : t.symbol? s.key = some s) :
    (t.entry s).pieces.map (t.pieces[·]?) = s.pieces.map some := by
  have hPieces := map_getElem?_findIdxs (fun p : Piece => decide (p.key = s.key)) t.pieces
  rw [← symbol?_eq_some_iff.1 hs]
  exact hPieces

/-! ## One piece more -/

/-- The keys after one piece more: as before if the key of the piece is among them, and else with
this key at the end. -/
theorem keys_append_singleton (t : SymbolTable) (p : Piece) :
    (t.append ⟨[p]⟩).keys = if p.key ∈ t.keys then t.keys else t.keys ++ [p.key] := by
  -- the key of the piece is dropped if it has occurred, and is the last one otherwise
  have hAppend : (t.append ⟨[p]⟩).keys =
      t.keys ++ ([p.key].removeAll (t.pieces.map Piece.key)).eraseDups := by
    unfold keys append
    rw [List.map_append, List.eraseDups_append]
    rfl
  have hMem : p.key ∈ t.keys ↔ p.key ∈ t.pieces.map Piece.key := by
    rw [keys, List.mem_eraseDups]
  rw [hAppend]
  by_cases hKey : p.key ∈ t.keys
  · rw [if_pos hKey, List.removeAll, List.filter_cons_of_neg (by simpa using hMem.1 hKey)]
    exact List.append_nil _
  · have hFresh : p.key ∉ t.pieces.map Piece.key := fun h => hKey (hMem.2 h)
    rw [if_neg hKey, List.removeAll, List.filter_cons_of_pos (by simpa using hFresh)]
    rfl

/-- A type keeps its number when a piece comes to the table. -/
theorem idxOf_keys_append {key : String} (h : key ∈ t.keys ∨ key = p.key) :
    (t.append ⟨[p]⟩).keys.idxOf key = t.keys.idxOf key := by
  have hKeys : (t.append ⟨[p]⟩).keys = (t.registry.place none p).keys := by
    rw [keys_append_singleton, Registry.keys_place, keys_registry]
  rw [hKeys, ← t.idOf_registry key]
  exact Registry.idOf_place (by rwa [keys_registry])

theorem findIdxs_append_singleton (t : SymbolTable) (p : Piece) (key : String) :
    (t.append ⟨[p]⟩).pieces.findIdxs (·.key = key) =
      t.pieces.findIdxs (·.key = key) ++ if p.key = key then [t.pieces.length] else [] := by
  show (t.pieces ++ [p]).findIdxs _ = _
  rw [List.findIdxs_append, List.findIdxs_singleton, Nat.zero_add]
  simp only [decide_eq_true_eq]

/-- A type that keeps what the table knows of it gains the piece if the piece has its key. The
fields come from the hypotheses one by one; only the number of the type around it needs that the
keys before it stay at their places. -/
theorem entry_append (hKey : r.key = s.key) (hName : r.name = s.name) (hArity : r.arity = s.arity)
    (hNamespace : (t.append ⟨[p]⟩).namespace? r = t.namespace? s)
    (hEnclosing :
      ((t.append ⟨[p]⟩).enclosing? r).map Symbol.key = (t.enclosing? s).map Symbol.key) :
    (t.append ⟨[p]⟩).entry r =
      if s.key = p.key then (t.entry s).push t.pieces.length else t.entry s := by
  have hContaining : ((t.append ⟨[p]⟩).enclosing? r).map (t.append ⟨[p]⟩).number =
      (t.enclosing? s).map t.number := by
    -- the type around is found by its key, whose number the new piece does not change
    have hNumbers := congrArg (Option.map (t.append ⟨[p]⟩).keys.idxOf) hEnclosing
    rw [Option.map_map, Option.map_map] at hNumbers
    refine hNumbers.trans (Option.map_congr fun outer hOuter => idxOf_keys_append (Or.inl ?_))
    exact mem_keys_iff.2 ⟨outer.first, first_mem_of_enclosing? hOuter, rfl⟩
  unfold entry Registry.Entry.push
  rw [hKey, hName, hArity, hNamespace, hContaining, findIdxs_append_singleton]
  by_cases hSame : s.key = p.key
  · rw [if_pos hSame, if_pos hSame.symm]
  · rw [if_neg hSame, if_neg (Ne.symm hSame), List.append_nil]

/-- The namespace of a type is that of the type around it. -/
theorem namespace?_of_enclosing? (h : t.enclosing? s = some outer) :
    t.namespace? s = t.namespace? outer := by
  have hOutermost : t.outermost s = t.outermost outer := by
    unfold outermost
    rw [ancestors_of_enclosing? h]
    cases t.ancestors outer <;> rfl
  rw [namespace?, namespace?, hOutermost]

theorem symbol?_append_of_mem_keys {key : String} (hKey : key ∈ t.keys) (hNew : p.key ∉ t.keys) :
    (t.append ⟨[p]⟩).symbol? key = t.symbol? key := by
  refine symbol?_append_left fun q hq hSame => hNew ?_
  rw [← List.mem_singleton.1 hq, hSame]
  exact hKey

/-- Whether all types around pieces are there. A table that is not closed could learn of a type
around a piece later on. -/
def Closed (t : SymbolTable) : Prop :=
  ∀ q ∈ t.pieces, ∀ outer ∈ q.parent, outer ∈ t.keys

/-- Nothing around a type changes when a piece starts a type. -/
theorem Closed.extends_append (h : t.Closed) (hNew : p.key ∉ t.keys) :
    (t.append ⟨[p]⟩).Extends t :=
  fun q hq outer hOuter => symbol?_append_of_mem_keys (h q hq outer hOuter) hNew

theorem symbols_append_of_not_mem (hNew : p.key ∉ t.keys) :
    (t.append ⟨[p]⟩).symbols = t.symbols ++ [⟨p, []⟩] := by
  have hLast : (t.append ⟨[p]⟩).symbol? p.key = some ⟨p, []⟩ := by
    rw [symbol?_append_right fun q hq hSame => hNew (mem_keys_iff.2 ⟨q, hq, hSame⟩)]
    exact symbol?_eq_some_iff.2 (List.filter_cons_of_pos (decide_eq_true rfl))
  unfold symbols
  rw [keys_append_singleton, if_neg hNew, List.filterMap_append, List.filterMap_cons_some hLast,
    List.filterMap_congr fun key hKey => symbol?_append_of_mem_keys hKey hNew]
  rfl

/-- The registry and the table find the same type around a piece that starts a type. The registry
takes the namespace of the type around it, and this type has taken its own in the same way, so in
the end it is that of the outermost one. -/
theorem around_append_of_not_mem (hClosed : t.Closed)
    (hParent : ∀ outer ∈ p.parent, outer ∈ t.keys) (hNew : p.key ∉ t.keys) :
    ((t.append ⟨[p]⟩).enclosing? ⟨p, []⟩).map (t.append ⟨[p]⟩).number =
        p.parent.map t.registry.idOf ∧
      (t.append ⟨[p]⟩).namespace? ⟨p, []⟩ =
        t.registry.namespaceIn (p.parent.map t.registry.idOf) p.head := by
  cases hOuter : p.parent with
  | none =>
    have hNone : (t.append ⟨[p]⟩).enclosing? ⟨p, []⟩ = none := by
      rw [enclosing?, hOuter]
      rfl
    refine ⟨by rw [hNone]; rfl, ?_⟩
    rw [namespace?, outermost, ancestors_of_enclosing?_eq_none hNone]
    rfl
  | some key =>
    have hKey : key ∈ t.keys := hParent key hOuter
    obtain ⟨outer, hFound⟩ := exists_symbol?_of_mem_keys hKey
    obtain rfl := key_of_symbol? hFound
    have hSome : (t.append ⟨[p]⟩).enclosing? ⟨p, []⟩ = some outer := by
      rw [enclosing?, hOuter]
      exact (symbol?_append_of_mem_keys hKey hNew).trans hFound
    constructor
    · rw [hSome, Option.map_some, Option.map_some, idOf_registry]
      exact congrArg some (idxOf_keys_append (Or.inl hKey))
    · -- the registry looks at one type further out, the table at the outermost one
      have hEntry : t.registry.entries[t.registry.idOf outer.key]? = some (t.entry outer) := by
        rw [idOf_registry]
        exact getElem?_entries_number hFound
      rw [namespace?_of_enclosing? hSome, Option.map_some, Registry.namespaceIn, hEntry]
      exact (hClosed.extends_append hNew).mirrors.namespace?_eq ⟨rfl, first_mem_of_symbol? hFound⟩

/-- **The type that a piece with a new key starts is the one that the registry starts.** -/
theorem entry_append_of_not_mem (hClosed : t.Closed)
    (hParent : ∀ outer ∈ p.parent, outer ∈ t.keys) (hNew : p.key ∉ t.keys) :
    (t.append ⟨[p]⟩).entry ⟨p, []⟩ =
      (t.registry.newEntry (p.parent.map t.registry.idOf) p).push t.pieces.length := by
  have hPieces : (t.append ⟨[p]⟩).pieces.findIdxs (·.key = p.key) = [t.pieces.length] := by
    -- no piece before has this key
    have hNone : t.pieces.findIdxs (·.key = p.key) = [] :=
      List.findIdxs_eq_nil_iff.2 fun q hq =>
        decide_eq_false fun hSame => hNew (mem_keys_iff.2 ⟨q, hq, hSame⟩)
    rw [findIdxs_append_singleton, hNone, if_pos rfl, List.nil_append]
  obtain ⟨hNumber, hNamespace⟩ := around_append_of_not_mem hClosed hParent hNew
  unfold entry Registry.newEntry Registry.Entry.push
  rw [hNumber, hNamespace]
  show Registry.Entry.mk p.key p.head.name _ p.head.arity _
    ((t.append ⟨[p]⟩).pieces.findIdxs (·.key = p.key)) = _
  rw [hPieces]
  rfl

/-- The arena gains the piece, and the pieces there keep their numbers. -/
theorem arena_registry_append (t : SymbolTable) (p : Piece) :
    (t.append ⟨[p]⟩).registry.arena = (t.registry.add p).arena := by
  show (t.pieces ++ [p]).map _ = t.registry.arena ++ [⟨p, t.registry.idOf p.key⟩]
  rw [List.map_append, List.map_singleton, idOf_registry]
  congr 1
  · refine List.map_congr_left fun q hq => ?_
    exact congrArg (Registry.Slot.mk q)
      (idxOf_keys_append (Or.inl (mem_keys_iff.2 ⟨q, hq, rfl⟩)))
  · exact congrArg (fun id => [Registry.Slot.mk p id]) (idxOf_keys_append (Or.inr rfl))

/-- A piece of a type that is there comes to this type, and the others stay as they are. -/
theorem entries_registry_append_of_mem (hKey : p.key ∈ t.keys) :
    (t.append ⟨[p]⟩).registry.entries = (t.registry.add p).entries := by
  have hSubset : ∀ q ∈ (⟨[p]⟩ : SymbolTable).pieces, q.key ∈ t.keys := fun q hq =>
    List.mem_singleton.1 hq ▸ hKey
  have hTypes : (t.append ⟨[p]⟩).symbols.map (t.append ⟨[p]⟩).entry = t.symbols.map fun s =>
      if s.key = p.key then (t.entry s).push t.pieces.length else t.entry s :=
    (map_eq_map_of_forall₂ (forall₂_gains_append hSubset) fun s r h =>
      (entry_append h.key h.name h.arity h.inNamespace h.enclosing).symm).symm
  -- keys are different, so a change at the number of a key is a change of the type that has it
  have hNodup : (t.registry.entries.map Registry.Entry.key).Nodup := by
    show ((t.symbols.map t.entry).map Registry.Entry.key).Nodup
    rw [List.map_map]
    exact List.pairwise_map.2 t.pairwise_key_symbols
  have hLength : t.registry.arena.length = t.pieces.length := List.length_map _
  rw [Registry.add, Registry.entries_place_of_mem (by rwa [keys_registry]), Registry.idOf,
    Registry.keys, modify_idxOf _ _ hNodup, hLength]
  show (t.append ⟨[p]⟩).symbols.map (t.append ⟨[p]⟩).entry = (t.symbols.map t.entry).map _
  rw [hTypes, List.map_map]
  rfl

/-- A piece with a new key starts the last type, and the others stay as they are. -/
theorem entries_registry_append_of_not_mem (hClosed : t.Closed)
    (hParent : ∀ outer ∈ p.parent, outer ∈ t.keys) (hNew : p.key ∉ t.keys) :
    (t.append ⟨[p]⟩).registry.entries = (t.registry.add p).entries := by
  have hExtends := hClosed.extends_append hNew
  have hLength : t.registry.arena.length = t.pieces.length := List.length_map _
  -- the types that were there have other keys, so their entries stay
  have hSame : ∀ s ∈ t.symbols, (t.append ⟨[p]⟩).entry s = t.entry s := by
    intro s hs
    have hFirst := first_mem_of_mem_symbols hs
    have hEntry : (t.append ⟨[p]⟩).entry s = _ := entry_append rfl rfl rfl
      (hExtends.mirrors.namespace?_eq ⟨rfl, hFirst⟩)
      (congrArg (Option.map Symbol.key) (hExtends.enclosing?_eq hFirst))
    rw [hEntry]
    exact if_neg fun hKey => hNew (mem_keys_iff.2 ⟨s.first, hFirst, hKey⟩)
  rw [Registry.add, Registry.entries_place_of_not_mem (by rwa [keys_registry]), hLength,
    ← entry_append_of_not_mem hClosed hParent hNew]
  show (t.append ⟨[p]⟩).symbols.map (t.append ⟨[p]⟩).entry = t.symbols.map t.entry ++ [_]
  rw [symbols_append_of_not_mem hNew, List.map_append, List.map_congr_left hSame]
  rfl

/-- **With one piece more in the table, its registry is the one to which the piece is added.** The
arena gains the piece in any case. The types depend on whether the key of the piece is in use. -/
theorem registry_append (hClosed : t.Closed) (hParent : ∀ outer ∈ p.parent, outer ∈ t.keys) :
    (t.append ⟨[p]⟩).registry = t.registry.add p := by
  refine Registry.ext (arena_registry_append t p) ?_
  by_cases hKey : p.key ∈ t.keys
  · exact entries_registry_append_of_mem hKey
  · exact entries_registry_append_of_not_mem hClosed hParent hKey

/-! ## All pieces -/

theorem closed_of_outsideIn {ps : List Piece} (h : Piece.OutsideIn ps) :
    Closed ⟨ps⟩ := by
  induction h with
  | nil => exact fun q hq => absurd hq List.not_mem_nil
  | @concat ps p before parent ih =>
    -- keys only become more, so what pieces before speak of is still there
    have hKeys : ∀ {key : String}, key ∈ keys ⟨ps⟩ → key ∈ keys ⟨ps ++ [p]⟩ := by
      intro key hKey
      obtain ⟨q, hq, hSame⟩ := mem_keys_iff.1 hKey
      exact mem_keys_iff.2 ⟨q, List.mem_append_left _ hq, hSame⟩
    intro q hq outer hOuter
    rcases List.mem_append.1 hq with hq | hq
    · exact hKeys (ih q hq outer hOuter)
    · rw [List.mem_singleton.1 hq] at hOuter
      exact hKeys (mem_keys_iff.2 (parent outer hOuter))

/-- **The registry of pieces that come from the outside in is read off their table.** By induction
on the pieces, the last of which is added on both sides. -/
theorem ofPieces_eq_registry {ps : List Piece} (h : Piece.OutsideIn ps) :
    Registry.ofPieces ps = registry ⟨ps⟩ := by
  induction h with
  | nil => rfl
  | @concat ps p before parent ih =>
    -- the type around the last piece has a piece before it, so it is there in the table so far
    rw [Registry.ofPieces_concat, ih]
    refine (registry_append (t := ⟨ps⟩) (closed_of_outsideIn before) ?_).symm
    exact fun outer hOuter => mem_keys_iff.2 (parent outer hOuter)

/-! ## The chain of a type -/

theorem symbol?_of_enclosing? (h : t.enclosing? s = some outer) :
    t.symbol? outer.key = some outer := by
  obtain ⟨key, -, hFound⟩ := Option.bind_eq_some_iff.1 h
  rwa [key_of_symbol? hFound]

/-- The loop over numbers collects the types around a type, from the inside out. Whatever has been
collected before stays in front. -/
theorem climbs_ancestors (s : Symbol) (links : List Nat) :
    t.registry.Climbs (t.entry s).containing links
      (links ++ ((t.ancestors s).map t.number).reverse) := by
  -- from type to type outwards, with any numbers collected on the way
  induction s using ancestors.induct t generalizing links with
  | case1 s hNone =>
    have hContaining : (t.entry s).containing = none := congrArg (Option.map t.number) hNone
    rw [hContaining, ancestors_of_enclosing?_eq_none hNone, List.map_nil, List.reverse_nil,
      List.append_nil]
    exact .done links
  | case2 s outer hOuter ih =>
    have hContaining : (t.entry s).containing = some (t.number outer) :=
      congrArg (Option.map t.number) hOuter
    rw [hContaining, ancestors_of_enclosing? hOuter, List.map_append, List.map_singleton,
      List.reverse_concat, List.append_cons]
    exact .step (getElem?_entries_number (symbol?_of_enclosing? hOuter)) (ih _)

/-- **The loop over numbers collects the chain of a type.** -/
theorem chain_number (hs : t.symbol? s.key = some s) :
    t.registry.Chain (t.number s) ((t.chain s).map t.number) := by
  refine ⟨t.entry s, _, getElem?_entries_number hs, climbs_ancestors s [t.number s], ?_⟩
  rw [chain, List.map_append, List.map_singleton, List.reverse_append, List.reverse_reverse]
  rfl

end SymbolTable

/-! ## The table of a program -/

/-- Whether a registry is one of a program: it is well formed, and beyond that its arena holds the
declarations of the program, and its types have chains. -/
structure Registry.Describes (r : Registry) (c : Compilation) : Prop extends r.WellFormed where
  /-- The arena holds all declarations, each once and in the order of the source. -/
  arena : c.InSourceOrder (r.arena.map Slot.piece)
  /-- Each piece is listed once, by one type. -/
  partition : (r.entries.flatMap Entry.pieces).Perm (List.range r.arena.length)
  /-- The loop ends at every type, with one result, which leads to the type. -/
  chains : ∀ id < r.entries.length, ∃ links,
    (∀ result, r.Chain id result ↔ result = links) ∧ r.Leads id links

/-- The registry of a program describes it: the numbers fit together because each declaration keeps
them so, and the arena is read off the table, which has the pieces in the order of the source. -/
theorem Registry.describes_ofCompilation (c : Compilation) : (ofCompilation c).Describes c where
  toWellFormed := wellFormed_ofCompilation c
  arena := by
    rw [ofCompilation_eq_ofPieces,
      SymbolTable.ofPieces_eq_registry (Piece.outsideIn_ofCompilation c)]
    have hPieces : (SymbolTable.ofCompilation c).registry.arena.map Slot.piece =
        (SymbolTable.ofCompilation c).pieces := by
      unfold SymbolTable.registry
      rw [List.map_map]
      exact List.map_id _
    exact hPieces.symm ▸ c.inSourceOrder_pieces
  partition := (wellFormed_ofCompilation c).perm_pieces
  chains := by
    intro id hId
    obtain ⟨links, hChain, hLeads⟩ := (wellFormed_ofCompilation c).exists_chain hId
    refine ⟨links, fun result => ⟨fun hResult => hResult.unique hChain, ?_⟩, hLeads⟩
    rintro rfl
    exact hChain

/-- Whether a table knows the same as a registry: what can be read off the table is the registry,
in which the numbers listed for a type stand for its pieces, and the loop that starts at a type
finds the chain of the type. -/
structure SymbolTable.NumberedBy (t : SymbolTable) (r : Registry) : Prop where
  registry : t.registry = r
  pieces : ∀ s ∈ t.symbols, (t.entry s).pieces.map (t.pieces[·]?) = s.pieces.map some
  chain : ∀ s ∈ t.symbols, r.Chain (t.number s) ((t.chain s).map t.number)

/-- **The table of a program is represented by numbers that fit together.** The registry that is
made of the program one declaration at a time is the one that can be read off the table. Its arena
holds the declarations in the order of the source. Each type lists its pieces, of which there is at
least one, in ascending order, each piece is listed by the one type that it names, and the types
come in the order of their first pieces. The type around a type comes before it and has the same
namespace, and the loop that collects the types around a type ends with an ascending chain, from a
type that has none around it down to the type itself. -/
theorem SymbolTable.numberedBy_ofCompilation (c : Compilation) :
    (ofCompilation c).NumberedBy (Registry.ofCompilation c) ∧
      (Registry.ofCompilation c).Describes c := by
  have hRegistry : (ofCompilation c).registry = Registry.ofCompilation c := by
    rw [Registry.ofCompilation_eq_ofPieces,
      ofPieces_eq_registry (Piece.outsideIn_ofCompilation c)]
    rfl
  refine ⟨⟨hRegistry, fun s hs => ?_, fun s hs => ?_⟩, Registry.describes_ofCompilation c⟩
  · exact map_getElem?_pieces_entry (symbol?_of_mem_symbols hs)
  · rw [← hRegistry]
    exact chain_number (symbol?_of_mem_symbols hs)

/-- A class in a class that is declared in two files, with a generic class of the same name next to
it in the second one. -/
example :
    let shed : TypeHead := { (default : TypeHead) with name := "Shed", inNamespace := some "Depot" }
    let box : TypeHead := { (default : TypeHead) with name := "Box" }
    let genericBox : TypeHead := { box with typeParameters := ["T"] }
    let r := Registry.ofCompilation ⟨[⟨"Shed.cs", [⟨shed, [⟨box, []⟩]⟩]⟩,
      ⟨"Box.cs", [⟨shed, [⟨genericBox, []⟩, ⟨box, []⟩]⟩]⟩]⟩
    r.arena.map Registry.Slot.symbol = [0, 1, 0, 2, 1] ∧
      r.entries.map Registry.Entry.containing = [none, some 0, some 0] ∧
      r.entries.map Registry.Entry.pieces = [[0, 2], [1, 4], [3]] := by
  decide

end ValidatorGen

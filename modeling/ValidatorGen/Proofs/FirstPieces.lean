import ValidatorGen.Proofs.Nesting

/-!
# Types in the order of their first pieces

The types of a table are found piece by piece: the first piece starts a type, which takes all pieces
of its key with it, and the pieces that are left make the other types. So a statement about all
types is proved by induction on the pieces, where a step leaves out the pieces of one key.

The keys of a table without repetitions are what the types are numbered by, and that list is not
structural in the pieces: the second step depends on what the first one took away. The induction
here is on the number of pieces, and is used through its two cases only.

Main results:

* `SymbolTable.symbols_induction` — the induction on the pieces;
* `SymbolTable.map_first_symbols_sublist` — the types come in the order of their first pieces;
* `SymbolTable.pairwise_key_symbols` — no two types have the same key.
-/

namespace ValidatorGen

namespace SymbolTable

variable {t : SymbolTable} {s r : Symbol}

/-- The pieces of other types than that of a piece. -/
def others (p : Piece) (ps : List Piece) : SymbolTable :=
  ⟨ps.filter fun q => !(q.key == p.key)⟩

/-- A type of another key has the same pieces when those of one key are left out. -/
theorem symbol?_cons_of_ne {p : Piece} {key : String} (h : key ≠ p.key) (ps : List Piece) :
    symbol? ⟨p :: ps⟩ key = symbol? (others p ps) key := by
  have hHead : ¬ (fun q : Piece => decide (q.key = key)) p = true := by
    simpa using fun hSame => h hSame.symm
  -- neither the first piece nor those that are left out have the other key
  have hPieces : piecesOf ⟨p :: ps⟩ key = piecesOf (others p ps) key := by
    show List.filter _ (p :: ps) = List.filter _ (List.filter _ ps)
    rw [List.filter_cons_of_neg (p := fun q : Piece => decide (q.key = key)) hHead,
      List.filter_filter]
    refine List.filter_congr fun q _ => ?_
    by_cases hKey : q.key = key
    · simp [hKey, h]
    · simp [hKey]
  rw [symbol?, symbol?, hPieces]

/-- **The first piece starts the first type**, and the pieces of other keys make the other types. -/
theorem symbols_cons (p : Piece) (ps : List Piece) :
    symbols ⟨p :: ps⟩ = ⟨p, ps.filter (·.key = p.key)⟩ :: (others p ps).symbols := by
  have hKeys : keys ⟨p :: ps⟩ = p.key :: (others p ps).keys := by
    unfold keys others
    rw [List.map_cons, List.eraseDups_cons, List.filter_map]
    rfl
  have hFirst : symbol? ⟨p :: ps⟩ p.key = some ⟨p, ps.filter (·.key = p.key)⟩ := by
    refine symbol?_eq_some_iff.2 ?_
    exact List.filter_cons_of_pos (p := fun q : Piece => decide (q.key = p.key))
      (decide_eq_true rfl)
  unfold symbols
  rw [hKeys, List.filterMap_cons_some hFirst]
  refine congrArg (_ :: ·) (List.filterMap_congr fun key hKey => symbol?_cons_of_ne ?_ ps)
  -- the keys of the other types are different
  obtain ⟨q, hq, rfl⟩ := mem_keys_iff.1 hKey
  intro hSame
  simpa [hSame] using (List.mem_filter.1 hq).2

/-- **Induction on the pieces of a table**, type by type. -/
theorem symbols_induction {P : SymbolTable → Prop} (nil : P ⟨[]⟩)
    (cons : ∀ p ps, P (others p ps) → P ⟨p :: ps⟩) (t : SymbolTable) : P t := by
  obtain ⟨ps⟩ := t
  generalize hLength : ps.length = n
  induction n using Nat.strongRecOn generalizing ps with
  | ind n ih =>
    cases ps with
    | nil => exact nil
    | cons p ps =>
      -- at least the first piece is gone, which is why the induction is on the number of pieces
      have hShorter : (ps.filter fun q => !(q.key == p.key)).length < n := by
        have hFilter := List.length_filter_le (fun q : Piece => !(q.key == p.key)) ps
        rw [List.length_cons] at hLength
        omega
      exact cons p ps (ih _ hShorter _ rfl)

/-- **The types come in the order of their first pieces.** -/
theorem map_first_symbols_sublist (t : SymbolTable) :
    (t.symbols.map Symbol.first).Sublist t.pieces := by
  induction t using symbols_induction with
  | nil => exact List.Sublist.refl _
  | cons p ps ih =>
    rw [symbols_cons, List.map_cons]
    exact (ih.trans List.filter_sublist).cons_cons p

/-- No two types have the same key. -/
theorem pairwise_key_symbols (t : SymbolTable) : t.symbols.Pairwise fun s r => s.key ≠ r.key := by
  induction t using symbols_induction with
  | nil => exact List.Pairwise.nil
  | cons p ps ih =>
    rw [symbols_cons, List.pairwise_cons]
    refine ⟨fun r hr hSame => ?_, ih⟩
    have hOther := (List.mem_filter.1 (first_mem_of_mem_symbols hr)).2
    have hKey : r.first.key = p.key := hSame.symm
    simp [hKey] at hOther

/-- The type of a key is one type. -/
theorem eq_of_key_eq (hs : s ∈ t.symbols) (hr : r ∈ t.symbols) (h : s.key = r.key) : s = r := by
  obtain ⟨key, -, hSymbol⟩ := List.mem_filterMap.1 hs
  obtain ⟨key', -, hSymbol'⟩ := List.mem_filterMap.1 hr
  rw [← key_of_symbol? hSymbol] at hSymbol
  rw [← key_of_symbol? hSymbol', ← h, hSymbol] at hSymbol'
  exact Option.some.inj hSymbol'

/-- Each key in use is that of the type at its place. -/
theorem map_symbol?_keys (t : SymbolTable) : t.keys.map t.symbol? = t.symbols.map some := by
  have hSome : ∀ key ∈ t.keys, ∃ s, t.symbol? key = some s := fun _ => exists_symbol?_of_mem_keys
  unfold symbols
  generalize t.keys = keys at hSome
  induction keys with
  | nil => rfl
  | cons key keys ih =>
    have hRest := ih fun other hOther => hSome other (List.mem_cons_of_mem key hOther)
    obtain ⟨s, hs⟩ := hSome key List.mem_cons_self
    rw [List.map_cons, List.filterMap_cons_some hs, List.map_cons, hRest, hs]

end SymbolTable

end ValidatorGen

import ValidatorGen.Proofs.Nesting
import Mathlib.Data.List.Nodup

/-!
# Types registered one declaration at a time

A registry numbers the declarations of a program and its types while it goes through the program. It
keeps the pieces in an arena, in the order in which they are met, and for each type an entry with
the numbers of its pieces and the number of the type around it. A declaration starts a type if its
key is new, and else comes to the type that has the key; those nested in it are registered next, and
find the type around them by its number.

What a registry has to satisfy is said by `Registry.WellFormed`. One declaration more keeps it, if
the number that is given for the type around it has been given out. Numbers of types around types
then get less and less, and this is why the way out from a type comes to an end.

The key of a nested declaration is made of the key of the type around it, which the registry looks
up by its number (`keyAt`). In the pieces of a program the keys are handed down instead. That both
come to the same is what makes the registry one of pieces (`insert_eq_foldl`), and it rests on two
facts: a key that is in the registry is found again at its number, and a number that has been given
out stays that of its key.

Main results:

* `Registry.WellFormed.place` — one declaration more keeps a registry well formed;
* `Registry.WellFormed.perm_pieces` — the lists of pieces divide the arena among the types;
* `Registry.WellFormed.exists_chain` — the loop that collects the types around a type comes to an
  end, with their numbers in ascending order;
* `Registry.ofCompilation_eq_ofPieces` — the numbers handed down to nested declarations are those of
  the keys that their pieces tell.
-/

namespace ValidatorGen

/-! ## Changes at one place of a list -/

theorem modify_concat {α : Type} (xs : List α) (x : α) (f : α → α) :
    (xs ++ [x]).modify xs.length f = xs ++ [f x] := by
  induction xs with
  | nil => rfl
  | cons y ys ih => exact congrArg (y :: ·) ih

/-- What a change at one place leaves alone is the same at all places. -/
theorem map_modify_of_eq {α β : Type} {f : α → α} {g : α → β} {xs : List α} (i : Nat)
    (h : ∀ x ∈ xs, g (f x) = g x) : (xs.modify i f).map g = xs.map g := by
  induction xs generalizing i with
  | nil => rw [List.modify_nil]
  | cons x xs ih =>
    obtain ⟨hHead, hRest⟩ := List.forall_mem_cons.1 h
    cases i with
    | zero => rw [List.modify_zero_cons, List.map_cons, List.map_cons, hHead]
    | succ i => rw [List.modify_succ_cons, List.map_cons, List.map_cons, ih i hRest]

/-- A change at the place of a key is a change of what has this key, if keys are different. Only the
first item with the key is changed, so without this condition others would be left out. -/
theorem modify_idxOf {α : Type} {key : α → String} {xs : List α} (k : String) (f : α → α)
    (h : (xs.map key).Nodup) :
    xs.modify ((xs.map key).idxOf k) f = xs.map fun x => if key x = k then f x else x := by
  induction xs with
  | nil => rw [List.modify_nil, List.map_nil]
  | cons x xs ih =>
    rw [List.map_cons, List.nodup_cons] at h
    rw [List.map_cons, List.map_cons]
    by_cases hKey : key x = k
    -- the key occurs once, so nothing behind its first place is changed on the right either
    · have hRest : (xs.map fun y => if key y = k then f y else y) = xs := by
        refine (List.map_congr_left fun y hy => if_neg ?_).trans (List.map_id xs)
        rintro rfl
        exact h.1 (hKey ▸ List.mem_map_of_mem hy)
      rw [hKey, List.idxOf_cons_self, List.modify_zero_cons, if_pos rfl, hRest]
    · rw [List.idxOf_cons_ne _ hKey, List.modify_succ_cons, ih h.2, if_neg hKey]

/-! ## Registries -/

/-- A piece in the arena, with the number of its type. A piece points back to its type, and a type
lists its pieces; that the two agree is part of being well formed. -/
structure Registry.Slot where
  piece : Piece
  symbol : Nat

/-- A type as it is registered. Its name, arity and namespace, and the number of the type around it,
are those that it was started with. -/
structure Registry.Entry where
  key : String
  name : String
  inNamespace : Option String
  arity : Nat
  containing : Option Nat
  pieces : List Nat

/-- The pieces and the types of a program, each numbered by its place. -/
@[ext]
structure Registry where
  arena : List Registry.Slot
  entries : List Registry.Entry

namespace Registry

/-- A type with one piece more. -/
def Entry.push (e : Entry) (i : Nat) : Entry :=
  { e with pieces := e.pieces ++ [i] }

theorem Entry.pieces_push (e : Entry) (i : Nat) : (e.push i).pieces = e.pieces ++ [i] := rfl

/-- Nothing is registered. -/
def empty : Registry := ⟨[], []⟩

def keys (r : Registry) : List String :=
  r.entries.map Entry.key

/-- The number of the type of a key; that of the next new type if there is none of the key. So the
number of a piece can be told before it is known whether it starts a type. -/
def idOf (r : Registry) (key : String) : Nat :=
  r.keys.idxOf key

/-- The key of the type of a number. -/
def keyAt (r : Registry) (id : Nat) : String :=
  (r.entries[id]?.map Entry.key).getD ""

/-- The namespace of a declaration: in a type that of the type, else the one written on it. It is
taken over once, when a type is started. Nothing changes it later on. -/
def namespaceIn (r : Registry) (containing : Option Nat) (head : TypeHead) : Option String :=
  match containing with
  | some outer => r.entries[outer]?.bind Entry.inNamespace
  | none => head.ownNamespace?

/-- The type that a piece starts, before the piece is listed. -/
def newEntry (r : Registry) (containing : Option Nat) (p : Piece) : Entry where
  key := p.key
  name := p.head.name
  inNamespace := r.namespaceIn containing p.head
  arity := p.head.arity
  containing := containing
  pieces := []

/-- The types, with a new one unless that of a piece is there. -/
def opened (r : Registry) (containing : Option Nat) (p : Piece) : List Entry :=
  if p.key ∈ r.keys then r.entries else r.entries ++ [r.newEntry containing p]

/-- A piece comes to its type, in the type of a number if there is a number. The type of the piece
is started first if it is not there, so that in either case there is an entry at its number to list
the piece. -/
def place (r : Registry) (containing : Option Nat) (p : Piece) : Registry where
  arena := r.arena ++ [⟨p, r.idOf p.key⟩]
  entries := (r.opened containing p).modify (r.idOf p.key) (·.push r.arena.length)

mutual

/-- A declaration is registered, and then all that is nested in it. The number of its type is handed
down to what is nested in it. -/
def insert (path : String) (r : Registry) (containing : Option Nat) : TypeDeclaration → Registry
  | ⟨head, nested⟩ =>
    let piece := Piece.ofHead path (containing.map r.keyAt) head (nested.map TypeDeclaration.head)
    insertAll path (r.place containing piece) (some (r.idOf piece.key)) nested

/-- Declarations that stand side by side are registered. -/
def insertAll (path : String) (r : Registry) (containing : Option Nat) :
    List TypeDeclaration → Registry
  | [] => r
  | d :: rest => insertAll path (insert path r containing d) containing rest

end

/-- The registry of a program, file by file. -/
def ofCompilation (c : Compilation) : Registry :=
  c.files.foldl (fun r file => insertAll file.path r none file.types) empty

/-! ## One piece more -/

variable {r : Registry} {containing : Option Nat} {p : Piece}

theorem idOf_lt_iff {key : String} : r.idOf key < r.entries.length ↔ key ∈ r.keys := by
  rw [idOf, ← List.idxOf_lt_length_iff, keys, List.length_map]

theorem idOf_eq_length {key : String} (h : key ∉ r.keys) : r.idOf key = r.entries.length := by
  rw [idOf, List.idxOf_eq_length h, keys, List.length_map]

/-- A piece of a type that is there comes to the others of the type. -/
theorem entries_place_of_mem (h : p.key ∈ r.keys) :
    (r.place containing p).entries = r.entries.modify (r.idOf p.key) (·.push r.arena.length) := by
  unfold place opened
  rw [if_pos h]

/-- A piece with a new key starts a type. -/
theorem entries_place_of_not_mem (h : p.key ∉ r.keys) :
    (r.place containing p).entries =
      r.entries ++ [(r.newEntry containing p).push r.arena.length] := by
  unfold place opened
  rw [if_neg h, idOf_eq_length h]
  exact modify_concat r.entries _ _

theorem keys_place :
    (r.place containing p).keys = if p.key ∈ r.keys then r.keys else r.keys ++ [p.key] := by
  by_cases h : p.key ∈ r.keys
  · rw [if_pos h, keys, entries_place_of_mem h]
    exact map_modify_of_eq (g := Entry.key) _ fun _ _ => rfl
  · rw [if_neg h, keys, entries_place_of_not_mem h, List.map_append]
    rfl

theorem keyAt_idOf {key : String} (h : key ∈ r.keys) : r.keyAt (r.idOf key) = key := by
  have hFound : (r.entries.map Entry.key)[r.idOf key]? = some key := List.getElem?_idxOf h
  rw [List.getElem?_map] at hFound
  rw [keyAt, hFound]
  rfl

/-- A type after a piece was placed is a type as before, or the type of the piece, which had all its
pieces but this one or has just been started. Each of the six parts of being well formed is proved
by these cases. -/
theorem entry_place {id : Nat} {e : Entry} (h : (r.place containing p).entries[id]? = some e) :
    (id ≠ r.idOf p.key ∧ r.entries[id]? = some e) ∨
    (id = r.idOf p.key ∧ ∃ old, e = old.push r.arena.length ∧
      (r.entries[id]? = some old ∨ (id = r.entries.length ∧ old = r.newEntry containing p))) := by
  by_cases hKey : p.key ∈ r.keys
  · rw [entries_place_of_mem hKey, List.getElem?_modify] at h
    obtain ⟨old, hOld, hPush⟩ := Option.map_eq_some_iff.1 h
    by_cases hId : r.idOf p.key = id
    · rw [if_pos hId] at hPush
      exact Or.inr ⟨hId.symm, old, hPush.symm, Or.inl hOld⟩
    · rw [if_neg hId] at hPush
      exact Or.inl ⟨Ne.symm hId, hPush ▸ hOld⟩
  · rw [entries_place_of_not_mem hKey] at h
    rw [idOf_eq_length hKey]
    by_cases hLt : id < r.entries.length
    · rw [List.getElem?_append_left hLt] at h
      exact Or.inl ⟨Nat.ne_of_lt hLt, h⟩
    · -- no type comes after the new one
      have hId : id = r.entries.length := by
        have := (List.getElem?_eq_some_iff.1 h).1
        rw [List.length_append, List.length_singleton] at this
        omega
      subst hId
      rw [List.getElem?_concat_length] at h
      exact Or.inr ⟨rfl, _, (Option.some.inj h).symm, Or.inr ⟨rfl, rfl⟩⟩

/-- Types keep their numbers and their namespaces. -/
theorem exists_entry_place {id : Nat} {e : Entry} (h : r.entries[id]? = some e) :
    ∃ f, (r.place containing p).entries[id]? = some f ∧ f.inNamespace = e.inNamespace := by
  by_cases hKey : p.key ∈ r.keys
  · rw [entries_place_of_mem hKey, List.getElem?_modify, h]
    refine ⟨_, rfl, ?_⟩
    split <;> rfl
  · rw [entries_place_of_not_mem hKey, List.getElem?_append_left (List.getElem?_eq_some_iff.1 h).1]
    exact ⟨e, h, rfl⟩

/-- The type of a piece is there once the piece is placed, and so are those that were there. -/
theorem lt_length_place {id : Nat} (h : id < r.entries.length ∨ id = r.idOf p.key) :
    id < (r.place containing p).entries.length := by
  by_cases hKey : p.key ∈ r.keys
  · rw [entries_place_of_mem hKey, List.length_modify]
    have := idOf_lt_iff.2 hKey
    omega
  · rw [entries_place_of_not_mem hKey, List.length_append, List.length_singleton]
    have := idOf_eq_length hKey
    omega

/-- What a piece names after one more was placed. -/
theorem symbol_place_eq_some_iff {i id : Nat} :
    ((r.place containing p).arena[i]?).map Slot.symbol = some id ↔
      (r.arena[i]?).map Slot.symbol = some id ∨ (i = r.arena.length ∧ id = r.idOf p.key) := by
  show ((r.arena ++ [⟨p, r.idOf p.key⟩])[i]?).map Slot.symbol = some id ↔ _
  -- The index is that of a piece from before, of the new piece, or of none.
  rcases Nat.lt_trichotomy i r.arena.length with hLt | rfl | hGt
  · rw [List.getElem?_append_left hLt]
    constructor
    · exact Or.inl
    · rintro (h | ⟨rfl, -⟩)
      · exact h
      · omega
  · rw [List.getElem?_concat_length, List.getElem?_eq_none (Nat.le_refl _)]
    simp [eq_comm]
  · have hNone : (r.arena ++ [⟨p, r.idOf p.key⟩])[i]? = none := by
      rw [List.getElem?_eq_none_iff, List.length_append, List.length_singleton]
      omega
    rw [hNone, List.getElem?_eq_none (Nat.le_of_lt hGt)]
    constructor
    · intro h
      cases h
    · rintro (h | ⟨rfl, -⟩)
      · cases h
      · omega

/-! ## Well-formed registries -/

/-- Whether the numbers in a registry fit together. This is the invariant of registering: what each
declaration preserves, and all that is known of the registry of a program. -/
structure WellFormed (r : Registry) : Prop where
  nonempty : ∀ e ∈ r.entries, e.pieces ≠ []
  ascending : ∀ e ∈ r.entries, e.pieces.Pairwise (· < ·)
  /-- A type lists the pieces that name it, and no others. -/
  listed : ∀ (id : Nat) (e : Entry), r.entries[id]? = some e → ∀ i,
    i ∈ e.pieces ↔ (r.arena[i]?).map Slot.symbol = some id
  /-- What a piece names is a type. -/
  symbol_lt : ∀ slot ∈ r.arena, slot.symbol < r.entries.length
  /-- The types come in the order of their first pieces. -/
  firsts : (r.entries.filterMap fun e => e.pieces.head?).Pairwise (· < ·)
  /-- The type around a type comes before it and has the same namespace. -/
  containing : ∀ (id : Nat) (e : Entry), r.entries[id]? = some e → ∀ outer ∈ e.containing,
    outer < id ∧ ∃ f : Entry, r.entries[outer]? = some f ∧ f.inNamespace = e.inNamespace

namespace WellFormed

theorem empty : Registry.empty.WellFormed where
  nonempty := by simp [Registry.empty]
  ascending := by simp [Registry.empty]
  listed := by simp [Registry.empty]
  symbol_lt := by simp [Registry.empty]
  firsts := by simp [Registry.empty]
  containing := by simp [Registry.empty]

theorem lt_length_arena (h : r.WellFormed) {e : Entry} (he : e ∈ r.entries) {i : Nat}
    (hi : i ∈ e.pieces) : i < r.arena.length := by
  obtain ⟨id, hId⟩ := List.getElem?_of_mem he
  obtain ⟨slot, hSlot, -⟩ := Option.map_eq_some_iff.1 ((h.listed id e hId i).1 hi)
  exact (List.getElem?_eq_some_iff.1 hSlot).1

/-- No piece names the next new type. -/
theorem symbol_ne_length (h : r.WellFormed) (i : Nat) :
    (r.arena[i]?).map Slot.symbol ≠ some r.entries.length := by
  intro hSymbol
  obtain ⟨slot, hSlot, hSame⟩ := Option.map_eq_some_iff.1 hSymbol
  have := h.symbol_lt slot (List.mem_of_getElem? hSlot)
  omega

/-- What a piece comes to, a type that is there or one that it starts, lists the pieces that name it
so far. A type that is just started lists none, and no piece can name it yet. -/
theorem mem_pieces_iff_of_old (h : r.WellFormed) {id : Nat} {old : Entry}
    (hOld : r.entries[id]? = some old ∨
      (id = r.entries.length ∧ old = r.newEntry containing p)) (i : Nat) :
    i ∈ old.pieces ↔ (r.arena[i]?).map Slot.symbol = some id := by
  rcases hOld with hOld | ⟨rfl, rfl⟩
  · exact h.listed id old hOld i
  · refine iff_of_false List.not_mem_nil (h.symbol_ne_length i)

/-- The number of a piece that is placed is greater than those of the pieces of its type so far. -/
theorem lt_of_mem_pieces_of_old (h : r.WellFormed) {id : Nat} {old : Entry}
    (hOld : r.entries[id]? = some old ∨
      (id = r.entries.length ∧ old = r.newEntry containing p)) {i : Nat} (hi : i ∈ old.pieces) :
    i < r.arena.length := by
  obtain ⟨slot, hSlot, -⟩ := Option.map_eq_some_iff.1 ((h.mem_pieces_iff_of_old hOld i).1 hi)
  exact (List.getElem?_eq_some_iff.1 hSlot).1

/-- The first pieces of the types: one more if the piece starts a type. The first pieces of the
types that are there do not change, since each of them has a piece and more only come after it. -/
theorem firsts_place (h : r.WellFormed) :
    ((r.place containing p).entries.filterMap fun e => e.pieces.head?) =
      (r.entries.filterMap fun e => e.pieces.head?) ++
        if p.key ∈ r.keys then [] else [r.arena.length] := by
  by_cases hKey : p.key ∈ r.keys
  · -- the first of several pieces stays the first one
    have hHeads : (r.place containing p).entries.map (fun e => e.pieces.head?) =
        r.entries.map fun e => e.pieces.head? := by
      rw [entries_place_of_mem hKey]
      refine map_modify_of_eq (g := fun e : Entry => e.pieces.head?) _ fun e he => ?_
      exact List.head?_append_of_ne_nil e.pieces (h.nonempty e he)
    have hFirsts := congrArg (List.filterMap id) hHeads
    rw [List.filterMap_map, List.filterMap_map] at hFirsts
    rw [if_pos hKey, List.append_nil]
    exact hFirsts
  · rw [if_neg hKey, entries_place_of_not_mem hKey, List.filterMap_append]
    rfl

/-- **One piece more keeps a registry well formed**, in any type that is there. -/
theorem place (h : r.WellFormed) (hContaining : ∀ outer ∈ containing, outer < r.entries.length) :
    (r.place containing p).WellFormed where
  nonempty := by
    intro e he
    obtain ⟨id, hId⟩ := List.getElem?_of_mem he
    rcases entry_place hId with ⟨-, hSame⟩ | ⟨-, old, rfl, -⟩
    · exact h.nonempty e (List.mem_of_getElem? hSame)
    · exact List.append_ne_nil_of_right_ne_nil _ (List.cons_ne_nil _ _)
  ascending := by
    intro e he
    obtain ⟨id, hId⟩ := List.getElem?_of_mem he
    rcases entry_place hId with ⟨-, hSame⟩ | ⟨-, old, rfl, hOld⟩
    · exact h.ascending e (List.mem_of_getElem? hSame)
    · have hPieces : old.pieces.Pairwise (· < ·) := by
        rcases hOld with hOld | ⟨-, rfl⟩
        · exact h.ascending old (List.mem_of_getElem? hOld)
        · exact List.Pairwise.nil
      refine List.pairwise_append.2 ⟨hPieces, List.pairwise_singleton _ _, ?_⟩
      intro i hi j hj
      rw [List.mem_singleton.1 hj]
      exact h.lt_of_mem_pieces_of_old hOld hi
  listed := by
    intro id e hId i
    rw [symbol_place_eq_some_iff]
    rcases entry_place hId with ⟨hNe, hSame⟩ | ⟨rfl, old, rfl, hOld⟩
    · rw [h.listed id e hSame i]
      exact (or_iff_left fun hLast => hNe hLast.2).symm
    · rw [Entry.pieces_push, List.mem_append, List.mem_singleton, h.mem_pieces_iff_of_old hOld i,
        and_iff_left rfl]
  symbol_lt := by
    intro slot hSlot
    refine lt_length_place ?_
    rcases List.mem_append.1 hSlot with hSlot | hLast
    · exact Or.inl (h.symbol_lt slot hSlot)
    · rw [List.mem_singleton.1 hLast]
      exact Or.inr rfl
  firsts := by
    rw [h.firsts_place, List.pairwise_append]
    refine ⟨h.firsts, ?_, ?_⟩
    · split
      · exact List.Pairwise.nil
      · exact List.pairwise_singleton _ _
    · -- a type that is started has the last piece of all
      intro i hi j hj
      obtain ⟨e, he, hHead⟩ := List.mem_filterMap.1 hi
      split at hj
      · cases hj
      · rw [List.mem_singleton.1 hj]
        exact h.lt_length_arena he (List.mem_of_mem_head? hHead)
  containing := by
    intro id e hId outer hOuter
    rcases entry_place hId with ⟨-, hSame⟩ | ⟨-, old, rfl, hOld | ⟨rfl, rfl⟩⟩
    · obtain ⟨hLt, f, hf, hNamespace⟩ := h.containing id e hSame outer hOuter
      obtain ⟨f', hf', hKept⟩ := exists_entry_place hf
      exact ⟨hLt, f', hf', hKept.trans hNamespace⟩
    · obtain ⟨hLt, f, hf, hNamespace⟩ := h.containing id old hOld outer hOuter
      obtain ⟨f', hf', hKept⟩ := exists_entry_place hf
      exact ⟨hLt, f', hf', hKept.trans hNamespace⟩
    · -- a type that is started takes its namespace from the type around it
      have hOuter : outer ∈ containing := hOuter
      have hLt := hContaining outer hOuter
      obtain ⟨f', hf', hKept⟩ := exists_entry_place (List.getElem?_eq_getElem hLt)
      refine ⟨hLt, f', hf', hKept.trans ?_⟩
      show _ = r.namespaceIn containing p.head
      rw [Option.mem_def.1 hOuter, namespaceIn, List.getElem?_eq_getElem hLt]
      rfl

/-- **The lists of pieces divide the arena among the types**: put together they are the numbers of
all pieces, each of them once. Both lists have no number twice, so it is enough that they have the
same ones. -/
theorem perm_pieces (h : r.WellFormed) :
    (r.entries.flatMap Entry.pieces).Perm (List.range r.arena.length) := by
  have hNodup : (r.entries.flatMap Entry.pieces).Nodup := by
    refine List.nodup_flatMap.2 ⟨fun e he => (h.ascending e he).imp Nat.ne_of_lt, ?_⟩
    refine List.pairwise_iff_getElem.2 fun j k hj hk hLess i hi hi' => ?_
    -- a piece in both lists would name both types
    have hFirst := (h.listed j _ (List.getElem?_eq_getElem hj) i).1 hi
    have hSecond := (h.listed k _ (List.getElem?_eq_getElem hk) i).1 hi'
    have := Option.some.inj (hFirst.symm.trans hSecond)
    omega
  refine (List.perm_ext_iff_of_nodup hNodup List.nodup_range).2 fun i => ?_
  rw [List.mem_flatMap, List.mem_range]
  constructor
  · rintro ⟨e, he, hi⟩
    exact h.lt_length_arena he hi
  · intro hi
    have hSlot := List.getElem?_eq_getElem hi
    have hSymbol := h.symbol_lt _ (List.mem_of_getElem? hSlot)
    refine ⟨_, List.getElem_mem hSymbol, ?_⟩
    rw [h.listed _ _ (List.getElem?_eq_getElem hSymbol) i, hSlot]
    rfl

end WellFormed

/-! ## The way out of a type -/

/-- How the loop goes on that collects the types around a type: what it has in hand is the number of
the type that comes next, if there is one, and those of the types so far, from the inside out. The
loop ends where a type has none around it. It is a relation and not a function, because it is only
for well-formed registries that the loop ends. -/
inductive Climbs (r : Registry) : Option Nat → List Nat → List Nat → Prop
  | done (links : List Nat) : Climbs r none links links
  | step {id : Nat} {e : Entry} {links all : List Nat} (found : r.entries[id]? = some e)
      (further : Climbs r e.containing (links ++ [id]) all) : Climbs r (some id) links all

/-- Whether the loop comes to an end at a type, with the numbers of the types around it, outermost
first, and its own. -/
def Chain (r : Registry) (id : Nat) (links : List Nat) : Prop :=
  ∃ e all, r.entries[id]? = some e ∧ r.Climbs e.containing [id] all ∧ links = all.reverse

/-- Whether numbers are those of the types around a type, outermost first, and its own. -/
structure Leads (r : Registry) (id : Nat) (links : List Nat) : Prop where
  outermost : ∀ first ∈ links.head?, ∃ e, r.entries[first]? = some e ∧ e.containing = none
  linked : links.IsChain fun outer inner =>
    ∃ e, r.entries[inner]? = some e ∧ e.containing = some outer
  ascending : links.Pairwise (· < ·)
  last : links.getLast? = some id

theorem Climbs.unique {next : Option Nat} {links all all' : List Nat} (h : r.Climbs next links all)
    (h' : r.Climbs next links all') : all = all' := by
  induction h with
  | done links =>
    cases h'
    rfl
  | step found further ih =>
    cases h' with
    | step found' further' =>
      obtain rfl := Option.some.inj (found.symm.trans found')
      exact ih further'

/-- The loop has one result. -/
theorem Chain.unique {id : Nat} {links links' : List Nat} (h : r.Chain id links)
    (h' : r.Chain id links') : links = links' := by
  obtain ⟨e, all, he, hClimbs, rfl⟩ := h
  obtain ⟨e', all', he', hClimbs', rfl⟩ := h'
  obtain rfl := Option.some.inj (he.symm.trans he')
  rw [hClimbs.unique hClimbs']

namespace WellFormed

/-- From the inside out, whatever has been collected before. By strong induction on the number of
the type, as the one of the type around it is less: there is a list of types around that the loop
puts after anything collected so far, and each type in it is around the one before. -/
theorem exists_climbs (h : r.WellFormed) {id : Nat} {e : Entry} (he : r.entries[id]? = some e) :
    ∃ around : List Nat, (∀ links, r.Climbs e.containing links (links ++ around)) ∧
      ((id :: around).IsChain fun inner outer =>
        ∃ f, r.entries[inner]? = some f ∧ f.containing = some outer) ∧
      ∀ last ∈ (id :: around).getLast?, ∃ f, r.entries[last]? = some f ∧ f.containing = none := by
  -- the number of the type around a type is less than its own
  induction id using Nat.strongRecOn generalizing e with
  | ind id ih =>
    cases hContaining : e.containing with
    | none =>
      refine ⟨[], fun links => ?_, List.isChain_singleton id, ?_⟩
      · rw [List.append_nil]
        exact .done links
      · rintro _ ⟨⟩
        exact ⟨e, he, hContaining⟩
    | some outer =>
      obtain ⟨hLess, f, hf, -⟩ := h.containing id e he outer hContaining
      obtain ⟨around, hClimbs, hChain, hLast⟩ := ih outer hLess hf
      refine ⟨outer :: around, fun links => .step hf ?_, ?_, ?_⟩
      · rw [List.append_cons links outer around]
        exact hClimbs (links ++ [outer])
      · exact List.isChain_cons_cons.2 ⟨⟨e, he, hContaining⟩, hChain⟩
      · rw [List.getLast?_cons_cons]
        exact hLast

/-- **The loop comes to an end at every type**, and what it collects leads from a type that has none
around it down to the type, through types each of which is around the next one. -/
theorem exists_chain (h : r.WellFormed) {id : Nat} (hId : id < r.entries.length) :
    ∃ links, r.Chain id links ∧ r.Leads id links := by
  obtain ⟨around, hClimbs, hChain, hLast⟩ := h.exists_climbs (List.getElem?_eq_getElem hId)
  have hLinked : (id :: around).reverse.IsChain fun outer inner =>
      ∃ e, r.entries[inner]? = some e ∧ e.containing = some outer := List.isChain_reverse.2 hChain
  refine ⟨(id :: around).reverse,
    ⟨_, _, List.getElem?_eq_getElem hId, hClimbs [id], rfl⟩, ?_, hLinked, ?_, ?_⟩
  · rw [List.head?_reverse]
    exact hLast
  · -- one link makes the numbers greater, and so do several
    refine List.isChain_iff_pairwise.1 (hLinked.imp ?_)
    rintro outer inner ⟨e, he, hContaining⟩
    exact (h.containing inner e he outer hContaining).1
  · rw [List.getLast?_reverse]
    rfl

end WellFormed

/-! ## Piece by piece -/

/-- A piece is registered in the type whose key it tells. -/
def add (r : Registry) (p : Piece) : Registry :=
  r.place (p.parent.map r.idOf) p

/-- The registry of pieces that come one after the other. -/
def ofPieces (ps : List Piece) : Registry :=
  ps.foldl add empty

theorem ofPieces_concat (ps : List Piece) (p : Piece) :
    ofPieces (ps ++ [p]) = (ofPieces ps).add p :=
  List.foldl_concat add empty p ps

theorem mem_keys_place {key : String} :
    key ∈ (r.place containing p).keys ↔ key ∈ r.keys ∨ key = p.key := by
  rw [keys_place]
  by_cases h : p.key ∈ r.keys
  · rw [if_pos h]
    exact (or_iff_left_of_imp fun hSame => hSame ▸ h).symm
  · rw [if_neg h, List.mem_append, List.mem_singleton]

/-- The keys that are in use are those of the pieces registered so far. -/
theorem mem_keys_ofPieces_iff {ps : List Piece} {key : String} :
    key ∈ (ofPieces ps).keys ↔ ∃ q ∈ ps, q.key = key := by
  induction ps using List.reverseRecOn with
  | nil => simp [ofPieces, empty, keys]
  | append_singleton ps p ih =>
    rw [ofPieces_concat, add, mem_keys_place, ih]
    simp [or_and_right, exists_or, eq_comm]

/-- The number of a key does not change once it is given out. -/
theorem idOf_place {key : String} (h : key ∈ r.keys ∨ key = p.key) :
    (r.place containing p).idOf key = r.idOf key := by
  rw [idOf, idOf, keys_place]
  by_cases hKey : p.key ∈ r.keys
  · rw [if_pos hKey]
  · rw [if_neg hKey, List.idxOf_append]
    rcases h with h | rfl
    · rw [if_pos h]
    · rw [if_neg hKey, List.idxOf_cons_self, List.idxOf_eq_length hKey, Nat.zero_add]

theorem mem_keys_foldl_add {key : String} (h : key ∈ r.keys) (ps : List Piece) :
    key ∈ (ps.foldl add r).keys := by
  induction ps generalizing r with
  | nil => exact h
  | cons p ps ih => exact ih (mem_keys_place.2 (Or.inl h))

theorem idOf_foldl_add {key : String} (h : key ∈ r.keys) (ps : List Piece) :
    (ps.foldl add r).idOf key = r.idOf key := by
  induction ps generalizing r with
  | nil => rfl
  | cons p ps ih => exact (ih (mem_keys_place.2 (Or.inl h))).trans (idOf_place (Or.inl h))

mutual

/-- A declaration is registered by registering its pieces: the number that is handed down to what is
nested in it is that of its key. By recursion over declarations and lists of declarations, with any
registry that knows the type around. -/
theorem insert_eq_foldl (path : String) : ∀ (d : TypeDeclaration) (r : Registry)
    (parent : Option String), (∀ outer ∈ parent, outer ∈ r.keys) →
      insert path r (parent.map r.idOf) d = (Piece.ofDeclaration path parent d).foldl add r
  | ⟨head, nested⟩, r, parent, hParent => by
    have hKeys : (parent.map r.idOf).map r.keyAt = parent := by
      cases parent with
      | none => rfl
      | some outer => exact congrArg some (keyAt_idOf (hParent outer rfl))
    rw [insert, hKeys, Piece.ofDeclaration, List.foldl_cons]
    let piece := Piece.ofHead path parent head (nested.map TypeDeclaration.head)
    -- what is nested is inserted under the number that the new piece has after it was added
    have hNumber : some (r.idOf piece.key) = (some piece.key).map (r.add piece).idOf :=
      congrArg some (idOf_place (Or.inr rfl)).symm
    show insertAll path (r.add piece) (some (r.idOf piece.key)) nested = _
    rw [hNumber]
    refine insertAll_eq_foldl path nested (r.add piece) (some piece.key) ?_
    rintro _ ⟨⟩
    exact mem_keys_place.2 (Or.inr rfl)

/-- Declarations side by side are all registered in the type of one number. -/
theorem insertAll_eq_foldl (path : String) : ∀ (ds : List TypeDeclaration) (r : Registry)
    (parent : Option String), (∀ outer ∈ parent, outer ∈ r.keys) →
      insertAll path r (parent.map r.idOf) ds = (Piece.ofDeclarations path parent ds).foldl add r
  | [], r, parent, _ => by
    rw [insertAll, Piece.ofDeclarations, List.foldl_nil]
  | d :: rest, r, parent, hParent => by
    rw [insertAll, insert_eq_foldl path d r parent hParent, Piece.ofDeclarations, List.foldl_append]
    -- what was registered in between has not changed the number of the type around
    have hNumber : parent.map r.idOf =
        parent.map ((Piece.ofDeclaration path parent d).foldl add r).idOf := by
      refine Option.map_congr fun outer hOuter => ?_
      exact (idOf_foldl_add (hParent outer hOuter) _).symm
    rw [hNumber]
    exact insertAll_eq_foldl path rest _ parent fun outer hOuter =>
      mem_keys_foldl_add (hParent outer hOuter) _

end

/-- **The registry of a program is that of its pieces.** -/
theorem ofCompilation_eq_ofPieces (c : Compilation) :
    ofCompilation c = ofPieces (Piece.ofCompilation c) := by
  unfold ofCompilation ofPieces Piece.ofCompilation
  rw [List.foldl_flatMap]
  congr 1
  funext r file
  exact insertAll_eq_foldl file.path file.types r none (fun _ h => nomatch h)

end Registry

/-! ## Pieces from the outside in -/

/-- Pieces each of which is in a type that has a piece before it, if it is in a type at all. It is
the order in which declarations are met, and what keeps the numbers of types around types valid. -/
inductive Piece.OutsideIn : List Piece → Prop
  | nil : OutsideIn []
  | concat {ps : List Piece} {p : Piece} (before : OutsideIn ps)
      (parent : ∀ outer ∈ p.parent, ∃ q ∈ ps, q.key = outer) : OutsideIn (ps ++ [p])

/-- The pieces of a program come from the outside in. -/
theorem Piece.outsideIn_ofCompilation (c : Compilation) : OutsideIn (ofCompilation c) := by
  -- The induction is on the declarations and carries what has been collected before them, since a
  -- parent may stand there.
  have hDeclarations : ∀ (path : String) parent ds ps, OutsideIn ps →
      (∀ outer ∈ parent, ∃ q ∈ ps, q.key = outer) →
      OutsideIn (ps ++ ofDeclarations path parent ds) := by
    intro path
    refine ofDeclarations_induction (P := fun parent qs => ∀ ps, OutsideIn ps →
      (∀ outer ∈ parent, ∃ q ∈ ps, q.key = outer) → OutsideIn (ps ++ qs)) ?nil ?node ?append
    case nil =>
      intro parent ps hps _
      rwa [List.append_nil]
    -- A declaration is collected before what is nested in it, so it is there as its parent.
    case node =>
      intro parent head nested qs hqs ps hps hParent
      rw [List.append_cons]
      refine hqs _ (hps.concat hParent) ?_
      rintro _ ⟨⟩
      exact ⟨_, List.mem_append_right ps (List.mem_singleton.2 rfl), rfl⟩
    case append =>
      intro parent as bs has hbs ps hps hParent
      rw [← List.append_assoc]
      refine hbs _ (has ps hps hParent) fun outer hOuter => ?_
      obtain ⟨q, hq, hKey⟩ := hParent outer hOuter
      exact ⟨q, List.mem_append_left as hq, hKey⟩
  have hFiles : ∀ (files : List SourceFile) ps, OutsideIn ps →
      OutsideIn (ps ++ files.flatMap fun file => ofDeclarations file.path none file.types) := by
    intro files
    induction files with
    | nil =>
      intro ps hps
      rwa [List.flatMap_nil, List.append_nil]
    | cons file files ih =>
      intro ps hps
      rw [List.flatMap_cons, ← List.append_assoc]
      exact ih _ (hDeclarations file.path none file.types ps hps fun _ h => nomatch h)
  exact hFiles c.files [] .nil

namespace Registry

/-- Pieces from the outside in make a well-formed registry. -/
theorem wellFormed_ofPieces {ps : List Piece} (h : Piece.OutsideIn ps) :
    (ofPieces ps).WellFormed := by
  induction h with
  | nil => exact WellFormed.empty
  | @concat ps p before parent ih =>
    rw [ofPieces_concat]
    refine ih.place fun outer hOuter => ?_
    obtain ⟨key, hKey, rfl⟩ := Option.map_eq_some_iff.1 hOuter
    exact idOf_lt_iff.2 (mem_keys_ofPieces_iff.2 (parent key hKey))

/-- **The registry of a program is well formed.** -/
theorem wellFormed_ofCompilation (c : Compilation) : (ofCompilation c).WellFormed := by
  rw [ofCompilation_eq_ofPieces]
  exact wellFormed_ofPieces (Piece.outsideIn_ofCompilation c)

end Registry

end ValidatorGen

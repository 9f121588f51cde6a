import ValidatorGen.Proofs.DiagnosticPlaces

/-!
# Declarations in the order of the source

A declaration is found by its *address*: the number of its file, its place among the outermost
declarations of the file, its place among those nested in that one, and so on. Of two addresses the
one that is less in the lexicographic order stands first in the source. In particular an address
comes before the ones that continue it, so that a declaration comes before all that is nested in it:
the order of addresses is the order in which a program is gone through depth first.

The pieces of a program are made by recursion, outer declarations before those in them and files one
after the other. The order that results is described here without recursion, by a sorted list of
addresses. Since an address leads to at most one declaration, the list has no gaps and no
repetitions, and the pieces correspond to it one by one. The same step, from what holds of each
block to what holds of all blocks, is made three times, for nested declarations, for those of a file
and for files; `numbered` and its three lemmas make it once.

Main results:

* `TypeDeclaration.mem_addresses_iff`, `Compilation.mem_addresses_iff` — all addresses that lead to
  a declaration are listed;
* `Compilation.pairwise_addresses` — in the order of the source, so that none is listed twice;
* `Compilation.inSourceOrder_pieces` — the pieces of a program stand in this order, each with the
  path of its own file.
-/

namespace ValidatorGen

/-! ## Addresses of blocks -/

/-- The addresses in blocks that stand side by side: each with the number of its block in front.
Blocks are numbered from `first` on. -/
def numbered (first : Nat) : List (List (List Nat)) → List (List Nat)
  | [] => []
  | block :: rest => block.map (first :: ·) ++ numbered (first + 1) rest

section Numbered

variable {α : Type} {f : α → List (List Nat)} {xs : List α} {first : Nat}

/-- An address is that of a block followed by one inside the block. -/
theorem mem_numbered_map_iff {a : List Nat} :
    a ∈ numbered first (xs.map f) ↔
      ∃ i x inside, xs[i]? = some x ∧ inside ∈ f x ∧ a = (first + i) :: inside := by
  induction xs generalizing first with
  | nil => simp [numbered]
  | cons x rest ih =>
    rw [List.map_cons, numbered, List.mem_append, List.mem_map, ih]
    constructor
    -- The numbers of the blocks after the first one are one higher than in the tail.
    · rintro (⟨inside, hInside, rfl⟩ | ⟨i, y, inside, hy, hInside, rfl⟩)
      · exact ⟨0, x, inside, rfl, hInside, rfl⟩
      · refine ⟨i + 1, y, inside, hy, hInside, ?_⟩
        rw [Nat.add_assoc, Nat.add_comm 1 i]
    · rintro ⟨i, y, inside, hy, hInside, rfl⟩
      cases i with
      | zero =>
        obtain rfl : x = y := Option.some.inj hy
        exact Or.inl ⟨inside, hInside, rfl⟩
      | succ i =>
        refine Or.inr ⟨i, y, inside, hy, hInside, ?_⟩
        rw [Nat.add_assoc, Nat.add_comm 1 i]

/-- Blocks in order make a list in order. Within a block the order inside it decides, and between
blocks their numbers. -/
theorem pairwise_numbered_map (h : ∀ x ∈ xs, (f x).Pairwise (· < ·)) :
    (numbered first (xs.map f)).Pairwise (· < ·) := by
  induction xs generalizing first with
  | nil => exact List.Pairwise.nil
  | cons x rest ih =>
    rw [List.map_cons, numbered, List.pairwise_append]
    refine ⟨?_, ih fun y hy => h y (List.mem_cons_of_mem x hy), ?_⟩
    · rw [List.pairwise_map]
      exact (h x List.mem_cons_self).imp fun hLess =>
        List.cons_lt_cons_iff.2 (Or.inr ⟨rfl, hLess⟩)
    · -- the number of a later block is greater
      intro a ha b hb
      obtain ⟨inside, -, rfl⟩ := List.mem_map.1 ha
      obtain ⟨i, y, inside', -, -, rfl⟩ := mem_numbered_map_iff.1 hb
      exact List.cons_lt_cons_iff.2 (Or.inl (by omega))

/-- What corresponds to the addresses of each block corresponds to all of them. -/
theorem forall₂_numbered_map {β : Type} {R : α → List Nat → β → Prop} {g : α → List β}
    (h : ∀ x ∈ xs, List.Forall₂ (R x) (f x) (g x)) :
    List.Forall₂
      (fun a b => ∃ i x inside, a = (first + i) :: inside ∧ xs[i]? = some x ∧ R x inside b)
      (numbered first (xs.map f)) (xs.flatMap g) := by
  induction xs generalizing first with
  | nil => exact .nil
  | cons x rest ih =>
    rw [List.map_cons, numbered, List.flatMap_cons]
    refine List.rel_append ?_ ?_
    · rw [List.forall₂_map_left_iff]
      exact (h x List.mem_cons_self).imp fun inside b hR => ⟨0, x, inside, rfl, rfl, hR⟩
    · refine (ih fun y hy => h y (List.mem_cons_of_mem x hy)).imp ?_
      rintro a b ⟨i, y, inside, rfl, hy, hR⟩
      refine ⟨i + 1, y, inside, ?_, hy, hR⟩
      rw [Nat.add_assoc, Nat.add_comm 1 i]

end Numbered

/-! ## Addresses in a declaration -/

namespace TypeDeclaration

/-- What holds of a declaration if it holds of those nested directly in it, holds of all. -/
theorem induction {P : TypeDeclaration → Prop}
    (node : ∀ head nested, (∀ d ∈ nested, P d) → P ⟨head, nested⟩) (d : TypeDeclaration) : P d := by
  refine TypeDeclaration.rec (motive_1 := P) (motive_2 := fun ds => ∀ d ∈ ds, P d)
    node ?nil ?cons d
  case nil =>
    intro d hd
    exact absurd hd List.not_mem_nil
  case cons =>
    intro d rest hd hRest
    exact List.forall_mem_cons.2 ⟨hd, hRest⟩

/-- The declaration to which an address inside a declaration leads. The empty address leads to the
declaration itself. -/
def within? (d : TypeDeclaration) : List Nat → Option TypeDeclaration
  | [] => some d
  | i :: inside => d.nested[i]?.bind fun e => e.within? inside

mutual

/-- The addresses inside a declaration; the empty one is that of the declaration itself. -/
def addresses : TypeDeclaration → List (List Nat)
  | ⟨_, nested⟩ => [] :: numbered 0 (addressBlocks nested)

/-- The addresses inside each of some declarations. -/
def addressBlocks : List TypeDeclaration → List (List (List Nat))
  | [] => []
  | d :: rest => addresses d :: addressBlocks rest

end

theorem addressBlocks_eq_map (ds : List TypeDeclaration) : addressBlocks ds = ds.map addresses := by
  induction ds with
  | nil => rw [addressBlocks, List.map_nil]
  | cons d rest ih => rw [addressBlocks, List.map_cons, ih]

theorem addresses_mk (head : TypeHead) (nested : List TypeDeclaration) :
    addresses ⟨head, nested⟩ = [] :: numbered 0 (nested.map addresses) := by
  rw [addresses, addressBlocks_eq_map]

/-- **All addresses that lead to a declaration are listed.** -/
theorem mem_addresses_iff (d : TypeDeclaration) {a : List Nat} :
    a ∈ d.addresses ↔ (d.within? a).isSome := by
  induction d using TypeDeclaration.induction generalizing a with
  | node head nested ih =>
    rw [addresses_mk]
    cases a with
    | nil => simp [within?]
    | cons i inside =>
      rw [List.mem_cons, mem_numbered_map_iff, within?]
      constructor
      · rintro (hNil | ⟨j, e, rest, he, hRest, hAddress⟩)
        · cases hNil
        · rw [Nat.zero_add] at hAddress
          -- The number of a block is the index of the declaration that made it.
          obtain ⟨rfl, rfl⟩ := List.cons.inj hAddress
          show (nested[i]?.bind fun e => e.within? inside).isSome
          rw [he]
          exact (ih e (List.mem_of_getElem? he)).1 hRest
      · intro hFound
        obtain ⟨f, hf⟩ := Option.isSome_iff_exists.1 hFound
        obtain ⟨e, he, hWithin⟩ := Option.bind_eq_some_iff.1 hf
        have hInside : inside ∈ e.addresses :=
          (ih e (List.mem_of_getElem? he)).2 (Option.isSome_of_eq_some hWithin)
        exact Or.inr ⟨i, e, inside, he, hInside, by rw [Nat.zero_add]⟩

/-- The addresses inside a declaration are listed in the order of the source. -/
theorem pairwise_addresses (d : TypeDeclaration) : d.addresses.Pairwise (· < ·) := by
  induction d using TypeDeclaration.induction with
  | node head nested ih =>
    rw [addresses_mk, List.pairwise_cons]
    refine ⟨fun a ha => ?_, pairwise_numbered_map ih⟩
    -- a declaration comes before all that is nested in it
    obtain ⟨i, d, inside, -, -, rfl⟩ := mem_numbered_map_iff.1 ha
    exact List.nil_lt_cons _ _

end TypeDeclaration

/-- Declarations side by side make the pieces of each one. -/
theorem Piece.ofDeclarations_eq_flatMap (path : String) (parent : Option String)
    (ds : List TypeDeclaration) :
    ofDeclarations path parent ds = ds.flatMap (ofDeclaration path parent) := by
  induction ds with
  | nil => rw [ofDeclarations, List.flatMap_nil]
  | cons d rest ih => rw [ofDeclarations, List.flatMap_cons, ih]

/-- The pieces of a declaration are those of the declarations at its addresses, in their order. -/
theorem TypeDeclaration.forall₂_addresses_pieces (path : String) (d : TypeDeclaration)
    (parent : Option String) :
    List.Forall₂ (fun a p => ∃ e, d.within? a = some e ∧ Piece.IsOf p path e)
      d.addresses (Piece.ofDeclaration path parent d) := by
  induction d using TypeDeclaration.induction generalizing parent with
  | node head nested ih =>
    rw [addresses_mk, Piece.ofDeclaration, Piece.ofDeclarations_eq_flatMap]
    refine .cons ⟨_, rfl, rfl, rfl, rfl⟩ ?_
    refine (forall₂_numbered_map fun d hd => ih d hd _).imp ?_
    rintro a p ⟨i, d, inside, rfl, hd, e, hWithin, hOf⟩
    refine ⟨e, ?_, hOf⟩
    rw [Nat.zero_add, within?]
    show (nested[i]?.bind fun d => d.within? inside) = some e
    rw [hd]
    exact hWithin

/-! ## Addresses in a program -/

namespace Compilation

/-- The declaration to which an address leads, with the path of its file. An address in a program
has the number of a file and the place of an outermost declaration in front. -/
def declaration? (c : Compilation) : List Nat → Option (String × TypeDeclaration)
  | i :: j :: inside => do
    let file ← c.files[i]?
    let outermost ← file.types[j]?
    let d ← outermost.within? inside
    return (file.path, d)
  | _ => none

theorem declaration?_eq_some_iff {c : Compilation} {a : List Nat} {path : String}
    {d : TypeDeclaration} :
    c.declaration? a = some (path, d) ↔
      ∃ i j inside file outermost, a = i :: j :: inside ∧ c.files[i]? = some file ∧
        file.types[j]? = some outermost ∧ outermost.within? inside = some d ∧ file.path = path := by
  match a with
  | [] => simp [declaration?]
  | [i] => simp [declaration?]
  | i :: j :: inside => simp [declaration?, Option.bind_eq_some_iff]

/-- The addresses of all declarations, file by file. -/
def addresses (c : Compilation) : List (List Nat) :=
  numbered 0 (c.files.map fun file => numbered 0 (file.types.map TypeDeclaration.addresses))

/-- **All addresses that lead to a declaration of a program are listed.** -/
theorem mem_addresses_iff (c : Compilation) {a : List Nat} :
    a ∈ c.addresses ↔ (c.declaration? a).isSome := by
  have hFound : (c.declaration? a).isSome ↔ ∃ path d, c.declaration? a = some (path, d) := by
    rw [Option.isSome_iff_exists, Prod.exists]
  rw [hFound, addresses, mem_numbered_map_iff]
  constructor
  · rintro ⟨i, file, rest, hFile, hRest, rfl⟩
    -- An address names the file, the outermost type in it, and the way inside that type.
    obtain ⟨j, outermost, inside, hOutermost, hInside, rfl⟩ := mem_numbered_map_iff.1 hRest
    obtain ⟨d, hWithin⟩ := Option.isSome_iff_exists.1 (outermost.mem_addresses_iff.1 hInside)
    refine ⟨file.path, d, declaration?_eq_some_iff.2
      ⟨i, j, inside, file, outermost, ?_, hFile, hOutermost, hWithin, rfl⟩⟩
    rw [Nat.zero_add, Nat.zero_add]
  · rintro ⟨path, d, hDeclaration⟩
    obtain ⟨i, j, inside, file, outermost, rfl, hFile, hOutermost, hWithin, -⟩ :=
      declaration?_eq_some_iff.1 hDeclaration
    have hInside : inside ∈ outermost.addresses :=
      outermost.mem_addresses_iff.2 (Option.isSome_of_eq_some hWithin)
    have hRest : j :: inside ∈ numbered 0 (file.types.map TypeDeclaration.addresses) :=
      mem_numbered_map_iff.2 ⟨j, outermost, inside, hOutermost, hInside, by rw [Nat.zero_add]⟩
    exact ⟨i, file, j :: inside, hFile, hRest, by rw [Nat.zero_add]⟩

/-- **The addresses of a program are listed in the order of the source.** -/
theorem pairwise_addresses (c : Compilation) : c.addresses.Pairwise (· < ·) :=
  pairwise_numbered_map fun _ _ => pairwise_numbered_map fun d _ => d.pairwise_addresses

/-- Whether pieces are those of all declarations of a program, each once and in the order of the
source: there is one for each address that leads to a declaration, in the order of addresses. The
addresses may be any that satisfy this, but there is only one such list. -/
def InSourceOrder (c : Compilation) (ps : List Piece) : Prop :=
  ∃ addresses : List (List Nat), addresses.Pairwise (· < ·) ∧
    (∀ a, a ∈ addresses ↔ (c.declaration? a).isSome) ∧
    List.Forall₂ (fun a p => ∃ path d, c.declaration? a = some (path, d) ∧ p.IsOf path d)
      addresses ps

/-- **The pieces of a program stand in the order of the source**, one for each declaration, with the
path of its file. -/
theorem inSourceOrder_pieces (c : Compilation) :
    c.InSourceOrder (SymbolTable.ofCompilation c).pieces := by
  refine ⟨c.addresses, c.pairwise_addresses, fun a => c.mem_addresses_iff, ?_⟩
  have hFile : ∀ file ∈ c.files, List.Forall₂
      (fun a p => ∃ j d inside, a = (0 + j) :: inside ∧ file.types[j]? = some d ∧
        ∃ e, d.within? inside = some e ∧ Piece.IsOf p file.path e)
      (numbered 0 (file.types.map TypeDeclaration.addresses))
      (Piece.ofDeclarations file.path none file.types) := by
    intro file _
    rw [Piece.ofDeclarations_eq_flatMap]
    exact forall₂_numbered_map fun d _ => d.forall₂_addresses_pieces file.path none
  refine (forall₂_numbered_map hFile).imp ?_
  rintro a p ⟨i, file, rest, rfl, hFound, j, outermost, inside, rfl, hOutermost, d, hWithin, hOf⟩
  refine ⟨file.path, d, declaration?_eq_some_iff.2
    ⟨i, j, inside, file, outermost, ?_, hFound, hOutermost, hWithin, rfl⟩, hOf⟩
  rw [Nat.zero_add, Nat.zero_add]

end Compilation

end ValidatorGen

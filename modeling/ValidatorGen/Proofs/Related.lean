import ValidatorGen.Proofs.Matching

/-!
# Programs that differ in their members' attributes

Two programs are related when they are declared in the same way and their members correspond one by
one in a given relation. If related members agree in all but their attributes, the programs have the
same shape, and their pieces, their types and their candidates correspond one by one.

This is the special case of programs that match in which heads differ in nothing but members.
Results that change annotations only, by renaming, dropping or reordering them, relate members one
by one and leave the rest of a program as it is. They need not speak about declarations at all: a
relation on members gives one on heads, on pieces and on types, and `Compilation.related_mapMembers`
makes the other program.

Main results:

* `Compilation.Related.forall₂_pieces` — the pieces of related programs are related;
* `SymbolTable.forall₂_candidates` — so are the candidates;
* `Compilation.related_mapMembers` — a change of each member gives a related program.
-/

namespace ValidatorGen

/-! ## Related declarations -/

section Related

variable (R : Member → Member → Prop)

/-- Pieces that differ in their members only, which are related one by one. There are as many
members on both sides, in the same order. -/
def TypeHead.Related (a b : TypeHead) : Prop :=
  ∃ members, List.Forall₂ R a.members members ∧ b = { a with members }

mutual

/-- Declarations that differ in members only, at any depth. What is nested in what is the same on
both sides. -/
inductive TypeDeclaration.Related : TypeDeclaration → TypeDeclaration → Prop
  | mk {a b : TypeHead} {as bs : List TypeDeclaration} :
    a.Related R b → TypeDeclaration.AllRelated as bs → TypeDeclaration.Related ⟨a, as⟩ ⟨b, bs⟩

/-- Declarations side by side that differ in members only. -/
inductive TypeDeclaration.AllRelated : List TypeDeclaration → List TypeDeclaration → Prop
  | nil : TypeDeclaration.AllRelated [] []
  | cons {d e : TypeDeclaration} {ds es : List TypeDeclaration} :
    TypeDeclaration.Related d e → TypeDeclaration.AllRelated ds es →
      TypeDeclaration.AllRelated (d :: ds) (e :: es)

end

/-- Programs that differ in members only. Files correspond one by one and keep their paths, as
places of diagnostics name them. -/
def Compilation.Related (c d : Compilation) : Prop :=
  List.Forall₂ (fun f g => f.path = g.path ∧ TypeDeclaration.AllRelated R f.types g.types)
    c.files d.files

/-- Pieces of one shape with related members. -/
def Piece.Related (p q : Piece) : Prop :=
  p.shape = q.shape ∧ p.head.Related R q.head

/-- Types with related pieces. -/
def Symbol.Related (s r : Symbol) : Prop :=
  List.Forall₂ (Piece.Related R) s.pieces r.pieces

end Related

variable {R : Member → Member → Prop}

/-! ## Related programs match -/

/-- Related pieces have one shape if related members agree in all but their attributes. The shape
has the members that could compete with the method in it, without their attributes. -/
theorem TypeHead.Related.shape_eq (hBare : ∀ m n, R m n → m.bare = n.bare) {a b : TypeHead}
    (h : a.Related R b) : a.shape = b.shape := by
  obtain ⟨members, hMembers, rfl⟩ := h
  unfold shape
  rw [Member.map_bare_rivals_eq (hMembers.imp hBare)]

namespace TypeDeclaration

mutual

theorem Related.matches :
    ∀ {d e : TypeDeclaration}, Related R d e → Matches (TypeHead.Related R) d e
  | ⟨_, _⟩, ⟨_, _⟩, .mk hHead hNested => .mk hHead (AllRelated.allMatch hNested)

/-- Related declarations have related heads at the same places. -/
theorem AllRelated.allMatch :
    ∀ {ds es : List TypeDeclaration}, AllRelated R ds es → AllMatch (TypeHead.Related R) ds es
  | [], [], .nil => .nil
  | _ :: _, _ :: _, .cons hFirst hRest =>
    .cons (Related.matches hFirst) (AllRelated.allMatch hRest)

end

end TypeDeclaration

theorem Compilation.Related.matches {c d : Compilation} (h : c.Related R d) :
    c.Matches (TypeHead.Related R) d :=
  h.imp fun _ _ hfg => ⟨hfg.1, hfg.2.allMatch⟩

/-- **The pieces of related programs are related.** -/
theorem Compilation.Related.forall₂_pieces (hBare : ∀ m n, R m n → m.bare = n.bare)
    {c d : Compilation} (h : c.Related R d) :
    List.Forall₂ (Piece.Related R) (SymbolTable.ofCompilation c).pieces
      (SymbolTable.ofCompilation d).pieces :=
  h.matches.forall₂_pieces fun _ _ hab => hab.shape_eq hBare

/-! ## Tables of related pieces -/

theorem Symbol.Related.isCandidate_eq {s r : Symbol} (h : s.Related R r) (known : KnownSymbols) :
    s.isCandidate known = r.isCandidate known := by
  refine any_eq_any_of_forall₂ h ?_
  -- members do not ask for a validator
  rintro p q ⟨-, members, -, hHead⟩
  rw [hHead]
  rfl

namespace SymbolTable

variable {t u : SymbolTable}

/-- **The candidates of related programs are related.** -/
theorem forall₂_candidates (h : List.Forall₂ (Piece.Related R) t.pieces u.pieces)
    (known : KnownSymbols) :
    List.Forall₂ (Symbol.Related R) (t.candidates known) (u.candidates known) :=
  forall₂_filter (forall₂_symbols h) fun _ _ hsr => Symbol.Related.isCandidate_eq hsr known

theorem eligible_eq_of_related (h : List.Forall₂ (Piece.Related R) t.pieces u.pieces)
    {s r : Symbol} (hsr : s.Related R r) : t.eligible s = u.eligible r :=
  (mirrors_of_forall₂ h).eligible_eq hsr

end SymbolTable

/-- **The plan for a type is that for a related one.** -/
theorem Plan.ofSymbol_eq_of_related {t u : SymbolTable}
    (h : List.Forall₂ (Piece.Related R) t.pieces u.pieces) {s r : Symbol} (hsr : s.Related R r)
    (capability : String) (mode : Mode) (constraints : List Constraint) :
    ofSymbol t s capability mode constraints = ofSymbol u r capability mode constraints :=
  (SymbolTable.mirrors_of_forall₂ h).plan_eq hsr capability mode constraints

/-! ## A change of each member -/

namespace TypeDeclaration

mutual

/-- A declaration with each member changed, at any depth. -/
def mapMembers (f : Member → Member) : TypeDeclaration → TypeDeclaration
  | ⟨head, nested⟩ => ⟨{ head with members := head.members.map f }, mapAllMembers f nested⟩

/-- Declarations with each member changed. -/
def mapAllMembers (f : Member → Member) : List TypeDeclaration → List TypeDeclaration
  | [] => []
  | d :: rest => mapMembers f d :: mapAllMembers f rest

end

mutual

theorem related_mapMembers {f : Member → Member} (hf : ∀ m, R m (f m)) :
    ∀ d : TypeDeclaration, Related R d (mapMembers f d)
  | ⟨head, nested⟩ => by
    have hMembers : List.Forall₂ R head.members (head.members.map f) :=
      List.forall₂_map_right_iff.2 (List.forall₂_same.2 fun m _ => hf m)
    rw [mapMembers]
    exact .mk ⟨_, hMembers, rfl⟩ (related_mapAllMembers hf nested)

theorem related_mapAllMembers {f : Member → Member} (hf : ∀ m, R m (f m)) :
    ∀ ds : List TypeDeclaration, AllRelated R ds (mapAllMembers f ds)
  | [] => .nil
  | d :: rest => by
    rw [mapAllMembers]
    exact .cons (related_mapMembers hf d) (related_mapAllMembers hf rest)

end

end TypeDeclaration

namespace Compilation

/-- A program with each member changed. -/
def mapMembers (f : Member → Member) (c : Compilation) : Compilation :=
  ⟨c.files.map fun file => { file with types := TypeDeclaration.mapAllMembers f file.types }⟩

/-- **A change of each member gives a related program.** -/
theorem related_mapMembers {f : Member → Member} (hf : ∀ m, R m (f m)) (c : Compilation) :
    c.Related R (c.mapMembers f) :=
  List.forall₂_map_right_iff.2 <| List.forall₂_same.2 fun file _ =>
    ⟨rfl, TypeDeclaration.related_mapAllMembers hf file.types⟩

end Compilation

end ValidatorGen

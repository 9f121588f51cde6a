import ValidatorGen.Proofs.SameForm

/-!
# A type is the union of its pieces

A declaration can be written in two parts that stand one after the other: attributes, bases, members
and nested declarations up to some place in the first part, and the others in the second one. The
table then has one more piece, and all that is nested in the first part comes before the second one.
Still every type has its pieces in the same order, and where one piece was there are now two that
together declare the same.

The table groups pieces by key, so two things are shown of it: the pieces of each key are made of
the pieces that had the key before, and the keys come in the same order. Both are inductions on
where in the tree of declarations the split is. At the place itself the argument is about the pieces
of the two parts and of all that is nested in them; everywhere else the pieces around it are the
same.

What a type gives is then read off its pieces taken together. A question about members or attributes
asks for all of them in order, and the parts have the same ones; a question about modifiers, names
or places asks for the first piece that has an answer, and every part has the answer of the whole.

Main results:

* `TypeDeclaration.Splits.madeOf_pieces` — the pieces of one key are made of the pieces of that key;
* `TypeDeclaration.Splits.eraseDups_keys` — no key comes to stand at another place;
* `Symbol.MadeOf.sameForm`, `Symbol.MadeOf.extraction_eq` — a type made of the parts of another has
  its form, and the same is found on it;
* `generate_eq_of_splits` — a pass gives the same for a declaration and for its two parts.
-/

namespace ValidatorGen

open Number (Arithmetic)

/-! ## Declarations in two parts -/

/-- How much of each list of a declaration stands in its first part. -/
structure Cut where
  attributes : Nat
  bases : Nat
  members : Nat
  nested : Nat

namespace TypeDeclaration

/-- The first part of a declaration. It has the modifiers, the type parameters and the span of the
whole. -/
def before (cut : Cut) (d : TypeDeclaration) : TypeDeclaration where
  head := { d.head with
    attributes := d.head.attributes.take cut.attributes
    baseList := d.head.baseList.take cut.bases
    members := d.head.members.take cut.members }
  nested := d.nested.take cut.nested

/-- The second part of a declaration. It has the same modifiers, type parameters and span, and is
nested in the same declaration. -/
def after (cut : Cut) (d : TypeDeclaration) : TypeDeclaration where
  head := { d.head with
    attributes := d.head.attributes.drop cut.attributes
    baseList := d.head.baseList.drop cut.bases
    members := d.head.members.drop cut.members }
  nested := d.nested.drop cut.nested

/-- Declarations of which one, at any depth, is written in two parts. The place is found by going
past declarations and into one of them. -/
inductive Splits : List TypeDeclaration → List TypeDeclaration → Prop
  | here (d : TypeDeclaration) (cut : Cut) (rest : List TypeDeclaration) :
    Splits (d :: rest) (d.before cut :: d.after cut :: rest)
  | within (head : TypeHead) {ds es : List TypeDeclaration} (h : Splits ds es)
    (rest : List TypeDeclaration) : Splits (⟨head, ds⟩ :: rest) (⟨head, es⟩ :: rest)
  | later (d : TypeDeclaration) {ds es : List TypeDeclaration} (h : Splits ds es) :
    Splits (d :: ds) (d :: es)

end TypeDeclaration

/-- A program of which one declaration is written in two parts. -/
def Compilation.Splits (c d : Compilation) : Prop :=
  ∃ before file types after, c.files = before ++ file :: after ∧
    TypeDeclaration.Splits file.types types ∧ d.files = before ++ { file with types } :: after

/-! ## Pieces made of pieces -/

/-- A piece without the lists that a cut goes through. Every part of a declaration has the banner of
the whole. -/
def TypeHead.banner (t : TypeHead) : TypeHead :=
  { t with
    attributes := []
    baseList := []
    members := [] }

namespace Piece

def banner (p : Piece) : Piece :=
  { p with
    head := p.head.banner
    nested := [] }

/-- Pieces that together declare what one piece declares. Of nested types, only the first one with
the name of the generated method is ever asked for. -/
structure MadeOf (p : Piece) (parts : List Piece) : Prop where
  ne_nil : parts ≠ []
  banner : ∀ q ∈ parts, q.banner = p.banner
  attributes : parts.flatMap (·.head.attributes) = p.head.attributes
  baseList : parts.flatMap (·.head.baseList) = p.head.baseList
  members : parts.flatMap (·.head.members) = p.head.members
  nested : ((parts.flatMap Piece.nested).find? (·.name = validateName)).map TypeHead.span =
    (p.nested.find? (·.name = validateName)).map TypeHead.span

/-- Pieces each of which is made of pieces. -/
inductive AllMadeOf : List Piece → List Piece → Prop
  | nil : AllMadeOf [] []
  | cons {p : Piece} {parts ps qs : List Piece} (first : p.MadeOf parts) (rest : AllMadeOf ps qs) :
    AllMadeOf (p :: ps) (parts ++ qs)

theorem MadeOf.path_eq {p q : Piece} {parts : List Piece} (h : p.MadeOf parts) (hq : q ∈ parts) :
    q.path = p.path := by
  have hPath := congrArg Piece.path (h.banner q hq)
  exact hPath

theorem MadeOf.key_eq {p q : Piece} {parts : List Piece} (h : p.MadeOf parts) (hq : q ∈ parts) :
    q.key = p.key := by
  have hKey := congrArg Piece.key (h.banner q hq)
  exact hKey

theorem MadeOf.refl (p : Piece) : p.MadeOf [p] where
  ne_nil := List.cons_ne_nil p []
  banner := fun q hq => by rw [List.mem_singleton.1 hq]
  attributes := by simp
  baseList := by simp
  members := by simp
  nested := by simp

namespace AllMadeOf

variable {β : Type} {ps qs : List Piece}

theorem refl (ps : List Piece) : AllMadeOf ps ps := by
  induction ps with
  | nil => exact .nil
  | cons p ps ih => exact .cons (.refl p) ih

theorem append {ps' qs' : List Piece} (h : AllMadeOf ps qs) (h' : AllMadeOf ps' qs') :
    AllMadeOf (ps ++ ps') (qs ++ qs') := by
  induction h with
  | nil => exact h'
  | cons first _ ih =>
    rw [List.cons_append, List.append_assoc]
    exact .cons first ih

theorem findSome?_eq {f : Piece → Option β} (h : AllMadeOf ps qs)
    (hf : ∀ p parts, MadeOf p parts → parts.findSome? f = f p) :
    qs.findSome? f = ps.findSome? f := by
  induction h with
  | nil => rfl
  | cons first _ ih =>
    rw [List.findSome?_append, hf _ _ first, ih, List.findSome?_cons]
    cases f _ <;> rfl

theorem flatMap_eq {f : Piece → List β} (h : AllMadeOf ps qs)
    (hf : ∀ p parts, MadeOf p parts → parts.flatMap f = f p) : qs.flatMap f = ps.flatMap f := by
  induction h with
  | nil => rfl
  | cons first _ ih => rw [List.flatMap_append, hf _ _ first, ih, List.flatMap_cons]

/-- What depends on banners only is found in the first part if it is found at all. -/
theorem findSome?_eq_of_banner {f : Piece → Option β} (h : AllMadeOf ps qs)
    (hf : ∀ p : Piece, f p.banner = f p) : qs.findSome? f = ps.findSome? f := by
  refine h.findSome?_eq fun p parts hParts => ?_
  have hSame : ∀ q ∈ parts, f q = f p := fun q hq => by rw [← hf q, hParts.banner q hq, hf p]
  cases hp : f p with
  | none => exact List.findSome?_eq_none_iff.2 fun q hq => (hSame q hq).trans hp
  | some b =>
    cases parts with
    | nil => exact absurd rfl hParts.ne_nil
    | cons q rest => rw [List.findSome?_cons, hSame q List.mem_cons_self, hp]

theorem map_find?_eq {test : Piece → Bool} {f : Piece → β} (h : AllMadeOf ps qs)
    (hTest : ∀ p : Piece, test p.banner = test p) (hf : ∀ p : Piece, f p.banner = f p) :
    (qs.find? test).map f = (ps.find? test).map f := by
  rw [List.find?_eq_findSome?_guard, List.find?_eq_findSome?_guard, List.map_findSome?,
    List.map_findSome?]
  refine h.findSome?_eq_of_banner fun p => ?_
  simp only [Function.comp, Option.guard, hTest p]
  split
  · exact congrArg some (hf p)
  · rfl

/-- What is read off the members, with the path of their file, is read off those of the parts. -/
theorem flatMap_members_eq {f : String → Member → List β} (h : AllMadeOf ps qs) :
    (qs.flatMap fun q => q.head.members.flatMap (f q.path)) =
      ps.flatMap fun p => p.head.members.flatMap (f p.path) := by
  refine h.flatMap_eq fun p parts hParts => ?_
  rw [List.flatMap_congr fun q hq => by rw [hParts.path_eq hq], ← List.flatMap_assoc,
    hParts.members]

end AllMadeOf

/-- The parts of a piece have its key. -/
theorem MadeOf.filter_key {p : Piece} {parts : List Piece} (h : p.MadeOf parts) (key : String) :
    AllMadeOf ([p].filter (·.key = key)) (parts.filter (·.key = key)) := by
  by_cases hKey : p.key = key
  -- all parts have the key of the piece, so a filter by key keeps all of them or none
  · have hAll : parts.filter (·.key = key) = parts :=
      List.filter_eq_self.2 fun q hq => decide_eq_true ((h.key_eq hq).trans hKey)
    have hSelf : [p].filter (·.key = key) = [p] := List.filter_cons_of_pos (by simpa using hKey)
    rw [hAll, hSelf, ← List.append_nil parts]
    exact .cons h .nil
  · have hNone : parts.filter (·.key = key) = [] :=
      List.filter_eq_nil_iff.2 fun q hq hSame =>
        hKey ((h.key_eq hq).symm.trans (of_decide_eq_true hSame))
    have hSelf : [p].filter (·.key = key) = [] := List.filter_cons_of_neg (by simpa using hKey)
    rw [hNone, hSelf]
    exact .nil

/-- Among the pieces of one key, two that have nothing of their key between them stand side by
side. -/
theorem filter_parts (p q : Piece) {between : List Piece} (others : List Piece) (key : String)
    (h : between.filter (·.key = q.key) = []) :
    ([p] ++ between ++ ([q] ++ others)).filter (·.key = key) =
      [p, q].filter (·.key = key) ++ (between ++ others).filter (·.key = key) := by
  have hPair : [p, q] = [p] ++ [q] := rfl
  simp only [hPair, List.filter_append, List.append_assoc, List.append_cancel_left_eq]
  by_cases hKey : q.key = key
  · rw [← hKey, h]
    rfl
  · have hSelf : [q].filter (·.key = key) = [] := List.filter_cons_of_neg (by simpa using hKey)
    rw [hSelf]
    rfl

end Piece

/-! ## The pieces of declarations in two parts -/

/-- An element that is already there does not count. -/
theorem eraseDups_append_cons_of_mem {α : Type} [DecidableEq α] {x : α} {xs : List α} (h : x ∈ xs)
    (ys : List α) : (xs ++ x :: ys).eraseDups = (xs ++ ys).eraseDups := by
  rw [List.eraseDups_append, List.eraseDups_append, List.removeAll, List.removeAll,
    List.filter_cons_of_neg (by simpa using h)]

namespace Piece

/-- What is nested in a type has a longer key than the type. -/
theorem length_lt_of_mem_ofDeclarations (path outer : String) (ds : List TypeDeclaration) :
    ∀ p ∈ ofDeclarations path (some outer) ds, outer.length < p.key.length := by
  refine forall_mem_ofDeclarations (Q := fun outer p => outer.length < p.key.length)
    (fun outer head nested => ?_) (fun outer head p hp => ?_) outer ds
  · exact head.length_lt_keyIn rfl
  · exact Nat.lt_trans (head.length_lt_keyIn rfl) hp

/-- No type nested in a type has its key. -/
theorem filter_ofDeclarations_eq_nil (path outer : String) (ds : List TypeDeclaration) :
    (ofDeclarations path (some outer) ds).filter (·.key = outer) = [] := by
  rw [List.filter_eq_nil_iff]
  intro p hp hKey
  have hLonger := length_lt_of_mem_ofDeclarations path outer ds p hp
  rw [of_decide_eq_true hKey] at hLonger
  exact absurd hLonger (Nat.lt_irrefl _)

end Piece

namespace TypeDeclaration

/-- The piece that a declaration makes. -/
def piece (path : String) (parent : Option String) (d : TypeDeclaration) : Piece :=
  .ofHead path parent d.head (d.nested.map head)

theorem ofDeclaration_eq (path : String) (parent : Option String) (d : TypeDeclaration) :
    Piece.ofDeclaration path parent d =
      [d.piece path parent] ++ Piece.ofDeclarations path (some (d.head.keyIn parent)) d.nested := by
  obtain ⟨head, nested⟩ := d
  rw [Piece.ofDeclaration]
  rfl

/-- What is nested in a declaration is nested in its first part or in its second one. -/
theorem ofDeclarations_parts (cut : Cut) (d : TypeDeclaration) (path : String)
    (parent : Option String) :
    Piece.ofDeclarations path parent d.nested =
      Piece.ofDeclarations path parent (d.before cut).nested ++
        Piece.ofDeclarations path parent (d.after cut).nested := by
  rw [← Piece.ofDeclarations_append]
  exact congrArg _ (List.take_append_drop cut.nested d.nested).symm

/-- A declaration is made of its two parts. -/
theorem madeOf_parts (path : String) (parent : Option String) (cut : Cut) (d : TypeDeclaration) :
    (d.piece path parent).MadeOf
      [(d.before cut).piece path parent, (d.after cut).piece path parent] where
  ne_nil := List.cons_ne_nil _ _
  banner := fun q hq => by
    rcases List.mem_pair.1 hq with rfl | rfl <;> rfl
  attributes := by simp [piece, Piece.ofHead, before, after]
  baseList := by simp [piece, Piece.ofHead, before, after]
  members := by simp [piece, Piece.ofHead, before, after]
  -- no nested declaration is lost at the cut
  nested := by
    have hNested : ([(d.before cut).piece path parent, (d.after cut).piece path parent].flatMap
        Piece.nested) = (d.piece path parent).nested := by
      simp [piece, Piece.ofHead, before, after]
    rw [hNested]

namespace Splits

variable {ds es : List TypeDeclaration}

/-- The first nested type of a name stands at the same place. -/
theorem map_find?_head (h : Splits ds es) (name : String) :
    ((es.map head).find? (·.name = name)).map TypeHead.span =
      ((ds.map head).find? (·.name = name)).map TypeHead.span := by
  induction h with
  | here d cut rest =>
    have hName : (d.before cut).head.name = d.head.name ∧ (d.after cut).head.name = d.head.name :=
      ⟨rfl, rfl⟩
    rw [List.map_cons, List.map_cons, List.map_cons, List.find?_cons, List.find?_cons,
      List.find?_cons, hName.1, hName.2]
    -- both parts have the name of the whole, so the first one is found where it was
    cases decide (d.head.name = name) <;> rfl
  | within head _ rest _ =>
    rw [List.map_cons, List.map_cons]
  | later d _ ih =>
    rw [List.map_cons, List.map_cons, List.find?_cons, List.find?_cons]
    cases decide (d.head.name = name)
    · exact ih
    · rfl

/-- A declaration is made of itself with one of the declarations in it in two parts. -/
theorem madeOf_within (h : Splits ds es) (path : String) (parent : Option String)
    (head : TypeHead) :
    (TypeDeclaration.mk head ds |>.piece path parent).MadeOf
      [TypeDeclaration.mk head es |>.piece path parent] where
  ne_nil := List.cons_ne_nil _ _
  -- only what is nested differs, and a nested type of the name is still found at its place
  banner := fun q hq => by
    rw [List.mem_singleton.1 hq]
    rfl
  attributes := by simp [piece, Piece.ofHead]
  baseList := by simp [piece, Piece.ofHead]
  members := by simp [piece, Piece.ofHead]
  nested := by
    rw [List.flatMap_singleton]
    exact h.map_find?_head validateName

/-- **The pieces of one key are made of the pieces of that key.** -/
theorem madeOf_pieces (h : Splits ds es) (path : String) (parent : Option String) (key : String) :
    Piece.AllMadeOf ((Piece.ofDeclarations path parent ds).filter (·.key = key))
      ((Piece.ofDeclarations path parent es).filter (·.key = key)) := by
  induction h generalizing parent with
  | here d cut rest =>
    have hNested := d.ofDeclarations_parts cut path (some (d.head.keyIn parent))
    -- nothing that is nested in the type stands between its parts among the pieces of one key
    have hParts := Piece.filter_parts ((d.before cut).piece path parent)
      ((d.after cut).piece path parent)
      (Piece.ofDeclarations path (some (d.head.keyIn parent)) (d.after cut).nested) key
      (Piece.filter_ofDeclarations_eq_nil path (d.head.keyIn parent) (d.before cut).nested)
    have hPieces : Piece.AllMadeOf ((Piece.ofDeclaration path parent d).filter (·.key = key))
        ((Piece.ofDeclaration path parent (d.before cut) ++
          Piece.ofDeclaration path parent (d.after cut)).filter (·.key = key)) := by
      rw [ofDeclaration_eq, ofDeclaration_eq, ofDeclaration_eq, hNested, List.filter_append]
      exact hParts ▸ .append ((d.madeOf_parts path parent cut).filter_key key) (.refl _)
    simp only [Piece.ofDeclarations, ← List.append_assoc]
    rw [List.filter_append _ (Piece.ofDeclarations path parent rest),
      List.filter_append _ (Piece.ofDeclarations path parent rest)]
    exact .append hPieces (.refl _)
  -- the piece of the outer type has other nested declarations now, the pieces inside are related by
  -- the induction
  | within head h rest ih =>
    simp only [Piece.ofDeclarations, ofDeclaration_eq, List.filter_append]
    exact .append (.append ((h.madeOf_within path parent head).filter_key key) (ih _)) (.refl _)
  | later d _ ih =>
    rw [Piece.ofDeclarations, Piece.ofDeclarations, List.filter_append, List.filter_append]
    exact .append (.refl _) (ih parent)

/-- **No key comes to stand at another place**, whatever stands before and after the declarations:
the second part of a declaration has a key that is already there. -/
theorem eraseDups_keys (h : Splits ds es) (path : String) (parent : Option String)
    (earlier later : List String) :
    (earlier ++ ((Piece.ofDeclarations path parent es).map Piece.key ++ later)).eraseDups =
      (earlier ++ ((Piece.ofDeclarations path parent ds).map Piece.key ++ later)).eraseDups := by
  induction h generalizing parent earlier later with
  | here d cut rest =>
    have hNested := d.ofDeclarations_parts cut path (some (d.head.keyIn parent))
    have hKnown : ((d.after cut).piece path parent).key ∈
        earlier ++ ((d.before cut).piece path parent).key ::
          (Piece.ofDeclarations path (some (d.head.keyIn parent)) (d.before cut).nested).map
            Piece.key :=
      List.mem_append_right earlier List.mem_cons_self
    -- the key of the second part is there already
    have hDropped := eraseDups_append_cons_of_mem hKnown
      ((Piece.ofDeclarations path (some (d.head.keyIn parent))
          (d.after cut).nested).map Piece.key ++
        ((Piece.ofDeclarations path parent rest).map Piece.key ++ later))
    simp only [Piece.ofDeclarations, ofDeclaration_eq, hNested, List.map_append, List.map_cons,
      List.append_assoc, List.cons_append, List.nil_append] at hDropped ⊢
    exact hDropped
  | within head _ rest ih =>
    -- the key of the outer type stands in front of those inside it
    have hInside := ih (some (head.keyIn parent)) (earlier ++ [head.keyIn parent])
      ((Piece.ofDeclarations path parent rest).map Piece.key ++ later)
    simp only [Piece.ofDeclarations, ofDeclaration_eq, List.map_append, List.map_cons,
      List.append_assoc, List.cons_append, List.nil_append] at hInside ⊢
    exact hInside
  | later d _ ih =>
    have hRest := ih parent (earlier ++ (Piece.ofDeclaration path parent d).map Piece.key) later
    simp only [Piece.ofDeclarations, List.map_append, List.append_assoc] at hRest ⊢
    exact hRest

end Splits

end TypeDeclaration

/-! ## Types made of the parts of others -/

/-- The findings on a type are those on its fields and properties. -/
theorem Finding.ofSymbol_eq (known : KnownSymbols) (s : Symbol) :
    ofSymbol known s =
      (s.members.filter (·.2.kind.isData)).flatMap fun (path, m) => ofMember known path m := by
  rw [ofSymbol, Symbol.members, List.filter_flatMap, List.flatMap_assoc]
  refine congrArg (List.flatMap · s.pieces) (funext fun p => ?_)
  rw [List.filter_map, List.flatMap_map]
  rfl

/-- Types whose pieces are made of pieces. -/
def Symbol.MadeOf (s r : Symbol) : Prop :=
  Piece.AllMadeOf s.pieces r.pieces

namespace Symbol.MadeOf

variable {s r : Symbol}

theorem banner_first (h : s.MadeOf r) : r.first.banner = s.first.banner := by
  have hFirst := h.findSome?_eq_of_banner (f := fun p => some p.banner) fun _ => rfl
  exact Option.some.inj hFirst

theorem members_eq (h : s.MadeOf r) : r.members = s.members := by
  have hMembers := h.flatMap_members_eq (f := fun path member => [(path, member)])
  simpa only [members, ← List.map_eq_flatMap] using hMembers

theorem nestedRival?_eq (h : s.MadeOf r) : r.nestedRival? = s.nestedRival? := by
  refine h.findSome?_eq fun p parts hParts => ?_
  have hNested := congrArg (Option.map (Location.ofSpan p.path)) hParts.nested
  rw [Option.map_map, Option.map_map, List.find?_flatMap, List.map_findSome?] at hNested
  rw [← List.head?_filterMap, List.filterMap_congr fun q hq => by rw [hParts.path_eq hq],
    List.head?_filterMap]
  exact hNested

/-- **A type made of the parts of another has its form.** -/
theorem sameForm (h : s.MadeOf r) : s.SameForm r where
  level := by
    have hLevel := congrArg (fun p => Level.mk p.head.kind p.head.name p.head.typeParameters)
      h.banner_first
    exact hLevel.symm
  inNamespace := by
    have hNamespace := congrArg (fun p => p.head.ownNamespace?) h.banner_first
    exact hNamespace.symm
  location := by
    have hLocation := congrArg Piece.location h.banner_first
    exact hLocation.symm
  access := (h.findSome?_eq_of_banner fun _ => rfl).symm
  unresolved := (h.map_find?_eq (fun _ => rfl) fun _ => rfl).symm
  static := (h.map_find?_eq (fun _ => rfl) fun _ => rfl).symm
  nonPartial := (h.map_find?_eq (fun _ => rfl) fun _ => rfl).symm
  mode := by
    -- the mode asks for the members, for a nested type of the name, and for the kind
    have hInterface : r.isInterface = s.isInterface := by
      have hKind := congrArg (fun p => p.head.kind) h.banner_first
      exact congrArg (fun kind => decide (kind = TypeKind.interfaceType)) hKind
    rw [mode, mode, rivals, rivals, h.nestedRival?_eq, h.members_eq, hInterface]

theorem isCandidate_eq (h : s.MadeOf r) (known : KnownSymbols) :
    r.isCandidate known = s.isCandidate known := by
  have hAttributes := h.flatMap_eq (f := fun p => p.head.attributes) fun _ _ hParts =>
    hParts.attributes
  have hBases := h.flatMap_eq (f := fun p => p.head.baseList) fun _ _ hParts => hParts.baseList
  -- a type asks for a validator by one of all its attributes or one of all its bases
  have hAsks : ∀ s : Symbol, s.isCandidate known =
      ((s.pieces.flatMap fun p => p.head.attributes).any
          (fun a => sameSymbol known.marker a.name) ||
        (s.pieces.flatMap fun p => p.head.baseList).any (sameSymbol known.capability)) := by
    intro s
    rw [Bool.eq_iff_iff]
    simp only [isCandidate, TypeHead.asksForValidator, List.any_flatMap, List.any_eq_true,
      Bool.or_eq_true, and_or_left, exists_or]
  rw [hAsks, hAsks, hAttributes, hBases]

/-- **The same is found on a type made of the parts of another.** -/
theorem extraction_eq [Arithmetic] (h : s.MadeOf r) (known : KnownSymbols) :
    Extraction.ofSymbol known r = Extraction.ofSymbol known s := by
  rw [Extraction.ofSymbol, Extraction.ofSymbol, Finding.ofSymbol_eq, Finding.ofSymbol_eq,
    h.members_eq]

end Symbol.MadeOf

/-! ## Tables of pieces made of pieces -/

/-- Whether two tables have the same keys, and the pieces of each key in one are made of those in
the other. -/
structure SymbolTable.MadeOf (t u : SymbolTable) : Prop where
  keys : u.keys = t.keys
  pieces : ∀ key, Piece.AllMadeOf (t.piecesOf key) (u.piecesOf key)

namespace SymbolTable.MadeOf

variable {t u : SymbolTable}

theorem rel_symbol? (h : t.MadeOf u) (key : String) :
    Option.Rel Symbol.MadeOf (t.symbol? key) (u.symbol? key) := by
  -- a key has a type if it has a piece, and it has one in both tables or in none
  have hPieces := h.pieces key
  rw [symbol?, symbol?]
  generalize t.piecesOf key = ps at hPieces
  generalize u.piecesOf key = qs at hPieces
  cases ps with
  | nil =>
    cases hPieces
    exact .none
  | cons p ps =>
    cases qs with
    | nil =>
      -- the parts of a piece are at least one
      have hFirst := hPieces.findSome?_eq_of_banner (f := fun p => some p.banner) fun _ => rfl
      cases hFirst
    | cons q qs => exact .some hPieces

theorem mirrors (h : t.MadeOf u) : Mirrors Symbol.MadeOf t u where
  nests := fun s r hsr => by
    have hParent : r.first.parent = s.first.parent := by
      have hParent := congrArg Piece.parent hsr.banner_first
      exact hParent
    rw [enclosing?, enclosing?, hParent]
    cases s.first.parent with
    | none => exact .none
    | some outer => exact h.rel_symbol? outer
  form := fun _ _ hsr => hsr.sameForm

theorem forall₂_candidates (h : t.MadeOf u) (known : KnownSymbols) :
    List.Forall₂ Symbol.MadeOf (t.candidates known) (u.candidates known) := by
  refine forall₂_filter ?_ fun _ _ hsr => (hsr.isCandidate_eq known).symm
  rw [symbols, symbols, h.keys]
  refine List.rel_filterMap (R := Eq) ?_ (List.forall₂_refl _)
  rintro key _ rfl
  exact h.rel_symbol? key

end SymbolTable.MadeOf

/-- **Where a declaration is written in two parts, the table is made of the same pieces.** -/
theorem Compilation.Splits.madeOf_table {c d : Compilation} (h : c.Splits d) :
    (SymbolTable.ofCompilation c).MadeOf (.ofCompilation d) := by
  obtain ⟨earlier, file, types, later, hc, hSplits, hd⟩ := h
  -- the pieces of the other files stand before and after those of the file with the split
  have hPieces : ∀ {types : List TypeDeclaration} {c : Compilation},
      c.files = earlier ++ { file with types } :: later →
        (SymbolTable.ofCompilation c).pieces =
          Piece.ofCompilation ⟨earlier⟩ ++ (Piece.ofDeclarations file.path none types ++
            Piece.ofCompilation ⟨later⟩) := by
    intro _ c hFiles
    rw [SymbolTable.ofCompilation, Piece.ofCompilation, hFiles, List.flatMap_append,
      List.flatMap_cons]
    rfl
  constructor
  · rw [SymbolTable.keys, SymbolTable.keys, hPieces hc, hPieces hd]
    simp only [List.map_append]
    exact hSplits.eraseDups_keys file.path none _ _
  · intro key
    rw [SymbolTable.piecesOf, SymbolTable.piecesOf, hPieces hc, hPieces hd]
    simp only [List.filter_append]
    exact .append (.refl _) (.append (hSplits.madeOf_pieces file.path none key) (.refl _))

/-- **A type is the union of its pieces.** A declaration, at any depth, can be written in two parts
without any effect on what a pass gives. Not only the sources agree: the diagnostics, their places
and their order are the same. -/
theorem generate_eq_of_splits [Arithmetic] (config : Config) {c d : Compilation} (h : c.Splits d) :
    generate config d = generate config c :=
  have hTable := h.madeOf_table
  (generate_eq_of_mirrors hTable.mirrors (hTable.forall₂_candidates config.symbols)
    fun _ _ hsr => (hsr.extraction_eq config.symbols).symm).symm

/-- A public class of a name with members and nested declarations. -/
def TypeDeclaration.publicClass (name : String) (members : List Member)
    (nested : List TypeDeclaration) : TypeDeclaration where
  head := { (default : TypeHead) with
    kind := .classType
    name
    modifiers := ["public", "partial"]
    attributes := [⟨KnownSymbols.standard.marker, [], []⟩]
    members
    symbol := TypeHead.namedType }
  nested

/-- A property that has to be less than five. -/
def Member.lessThanFive (name : String) : Member :=
  { (default : Member) with
    kind := .property
    name
    attributes := [⟨KnownSymbols.standard.lessThan,
      [⟨"int", .number (.integer 5 (by decide))⟩], []⟩] }

/-- A nested class with two properties, and the same in two parts with one property each, of which
only the first one has the marker. -/
theorem generate_eq_of_splits_nested :
    let box : TypeDeclaration :=
      .publicClass "Box" [.lessThanFive "Width", .lessThanFive "Height"] []
    let cut : Cut := ⟨1, 0, 1, 0⟩
    let whole : Compilation := ⟨[⟨"Shed.cs", [.publicClass "Shed" [] [box]]⟩]⟩
    let parts : Compilation :=
      ⟨[⟨"Shed.cs", [.publicClass "Shed" [] [box.before cut, box.after cut]]⟩]⟩
    whole.Splits parts ∧ generate .standard parts = generate .standard whole := by
  intro box cut whole parts
  have hSplits : whole.Splits parts :=
    ⟨[], ⟨"Shed.cs", [.publicClass "Shed" [] [box]]⟩, _, [], rfl,
      .within (TypeDeclaration.publicClass "Shed" [] [box]).head (.here box cut []) [], rfl⟩
  exact ⟨hSplits, generate_eq_of_splits .standard hSplits⟩

end ValidatorGen

import ValidatorGen.Snapshot.Basic

/-!
# Declaration pieces

A snapshot taken apart into its declaration pieces: file by file, in the order of the source, a
declaration before the ones nested in it. A piece carries the *key* of the type it belongs to,
which is made of the namespace and of the names and arities from the outermost declaration down
to the piece. All pieces with one key are pieces of one type.

Keys replace pointers. A piece does not refer to the piece around it but to the key of the type
around it; which pieces this type has is only known once all files have been taken apart. That the
key of an inner type is longer than that of the outer one is part of what a piece is, and it is the
reason why the way from a type to the types around it comes to an end.

Keys are texts, joined by marks that do not occur in names of types. If names could hold these
marks, different types could have one key; nothing here depends on it, but statements about paths of
names do, and they say so.
-/

namespace ValidatorGen

namespace TypeHead

/-- The namespace written on a piece; an empty one is none. -/
def ownNamespace? (t : TypeHead) : Option String :=
  t.inNamespace.filter (· ≠ "")

/-- The name of the piece with its arity, as it stands in keys. -/
def keyPart (t : TypeHead) : String :=
  t.name ++ "`" ++ t.arity.repr

/-- The key of the type a piece belongs to, from the key of the type around it. Without a type
around it the key starts with the namespace. A namespace that is written on a nested piece is not
part of any key. -/
def keyIn (parent : Option String) (t : TypeHead) : String :=
  match parent with
  | some outer => outer ++ "+" ++ t.keyPart
  | none => t.ownNamespace?.getD "" ++ "::" ++ t.keyPart

/-- A key is longer than the key of the type around it. -/
theorem length_lt_keyIn {parent : Option String} {outer : String} (h : outer ∈ parent)
    (t : TypeHead) : outer.length < (t.keyIn parent).length := by
  obtain rfl := Option.mem_def.1 h
  simp only [keyIn, String.length_append]
  have : "+".length = 1 := rfl
  omega

end TypeHead

/-- One declaration of a type, with what is declared directly in it. -/
structure Piece where
  key : String
  /-- The key of the type around it. -/
  parent : Option String
  path : String
  head : TypeHead
  nested : List TypeHead
  parent_lt : ∀ outer ∈ parent, outer.length < key.length

namespace Piece

/-- The piece that a declaration makes inside a type. -/
def ofHead (path : String) (parent : Option String) (head : TypeHead) (nested : List TypeHead) :
    Piece :=
  { key := head.keyIn parent
    parent, path, head, nested
    parent_lt := fun _ h => head.length_lt_keyIn h }

mutual

/-- The pieces of a declaration and of all that is nested in it. -/
def ofDeclaration (path : String) (parent : Option String) : TypeDeclaration → List Piece
  | ⟨head, nested⟩ =>
    let piece := ofHead path parent head (nested.map TypeDeclaration.head)
    piece :: ofDeclarations path (some piece.key) nested

/-- The pieces of declarations that stand side by side. -/
def ofDeclarations (path : String) (parent : Option String) : List TypeDeclaration → List Piece
  | [] => []
  | declaration :: rest => ofDeclaration path parent declaration ++ ofDeclarations path parent rest

end

section Induction

variable {path : String} {P : Option String → List Piece → Prop}

mutual

private theorem ofDeclaration_induction (nil : ∀ parent, P parent [])
    (node : ∀ parent head nested ps, P (some (head.keyIn parent)) ps →
      P parent (ofHead path parent head nested :: ps))
    (append : ∀ parent ps qs, P parent ps → P parent qs → P parent (ps ++ qs)) :
    ∀ parent declaration, P parent (ofDeclaration path parent declaration)
  | parent, ⟨head, nested⟩ => by
    rw [ofDeclaration]
    exact node parent head _ _ (ofDeclarations_induction nil node append _ nested)

/-- What holds of no pieces, of a piece with the pieces in it, and of pieces side by side, holds of
the pieces of all declarations. -/
theorem ofDeclarations_induction (nil : ∀ parent, P parent [])
    (node : ∀ parent head nested ps, P (some (head.keyIn parent)) ps →
      P parent (ofHead path parent head nested :: ps))
    (append : ∀ parent ps qs, P parent ps → P parent qs → P parent (ps ++ qs)) :
    ∀ parent declarations, P parent (ofDeclarations path parent declarations)
  | parent, [] => by
    rw [ofDeclarations]
    exact nil parent
  | parent, declaration :: rest => by
    rw [ofDeclarations]
    exact append parent _ _ (ofDeclaration_induction nil node append parent declaration)
      (ofDeclarations_induction nil node append parent rest)

end

/-- A relation between a type and the pieces in it holds at every depth if it holds of those
directly in the type, and if a type in a type passes it on to the one around it. -/
theorem forall_mem_ofDeclarations {Q : String → Piece → Prop}
    (here : ∀ outer head nested, Q outer (ofHead path (some outer) head nested))
    (inside : ∀ outer (head : TypeHead) p, Q (head.keyIn (some outer)) p → Q outer p)
    (outer : String) (declarations : List TypeDeclaration) :
    ∀ p ∈ ofDeclarations path (some outer) declarations, Q outer p := by
  -- The induction is over any parent, so what it says is about the outer type if there is one.
  have hAll : ∀ parent declarations, ∀ outer ∈ parent,
      ∀ p ∈ ofDeclarations path parent declarations, Q outer p := by
    refine ofDeclarations_induction (P := fun parent ps => ∀ outer ∈ parent, ∀ p ∈ ps, Q outer p)
      ?nil ?node ?append
    case nil =>
      intro parent outer _ p hp
      exact absurd hp List.not_mem_nil
    case node =>
      rintro parent head nested ps hps outer rfl p hp
      rcases List.mem_cons.1 hp with rfl | hp
      · exact here outer head nested
      · exact inside outer head p (hps _ rfl p hp)
    case append =>
      intro parent ps qs hps hqs outer hOuter p hp
      rcases List.mem_append.1 hp with hp | hp
      · exact hps outer hOuter p hp
      · exact hqs outer hOuter p hp
  exact hAll (some outer) declarations outer rfl

end Induction

theorem ofDeclarations_append (path : String) (parent : Option String)
    (a b : List TypeDeclaration) :
    ofDeclarations path parent (a ++ b) =
      ofDeclarations path parent a ++ ofDeclarations path parent b := by
  induction a with
  | nil => simp [ofDeclarations]
  | cons d rest ih => simp [ofDeclarations, ih]

/-- The pieces of a whole program. -/
def ofCompilation (c : Compilation) : List Piece :=
  c.files.flatMap fun file => ofDeclarations file.path none file.types

theorem ofCompilation_merge (a b : Compilation) :
    ofCompilation (a.merge b) = ofCompilation a ++ ofCompilation b := by
  simp [ofCompilation]

/-- The place of the declaration in its file. -/
def span (p : Piece) : Span :=
  p.head.span

end Piece

end ValidatorGen

import ValidatorGen.Symbol.Piece

/-!
# Types and their pieces

A symbol is a type with all its pieces, in the order in which they are declared. The first piece
decides what the pieces might disagree on: name, kind, type parameters, and the type around it.

The table of a program is nothing but its pieces. All that is said about types is computed from
them: the types are the keys that occur, and the pieces of a type are those with its key. There is
no index that would have to be kept in step with them.

The types around a type are found by way of keys, one after the other. Each of them has a shorter
key, and that is what the recursion is on. It also ends, with the types found so far, if a key leads
nowhere, which does not happen in the table of a program.

* `SymbolTable.symbols` — the types of a program, in the order of their first pieces;
* `SymbolTable.chain` — the types around a type, outermost first, and the type itself.
-/

namespace ValidatorGen

/-- A type: its first piece and the others. -/
structure Symbol where
  first : Piece
  rest : List Piece

namespace Symbol

def pieces (s : Symbol) : List Piece :=
  s.first :: s.rest

def key (s : Symbol) : String :=
  s.first.key

def name (s : Symbol) : String :=
  s.first.head.name

def arity (s : Symbol) : Nat :=
  s.first.head.arity

/-- The kind that the first piece declares. -/
def kind (s : Symbol) : TypeKind :=
  s.first.head.kind

/-- The first piece that is not declared partial. -/
def nonPartialPiece? (s : Symbol) : Option Piece :=
  s.pieces.find? fun p => !p.head.hasModifier "partial"

end Symbol

/-- The types of a program, given by its pieces. -/
structure SymbolTable where
  pieces : List Piece

namespace SymbolTable

def ofCompilation (c : Compilation) : SymbolTable :=
  ⟨Piece.ofCompilation c⟩

/-- The pieces of one key. -/
def piecesOf (t : SymbolTable) (key : String) : List Piece :=
  t.pieces.filter (·.key = key)

/-- The type of a key. -/
def symbol? (t : SymbolTable) (key : String) : Option Symbol :=
  match t.piecesOf key with
  | [] => none
  | first :: rest => some ⟨first, rest⟩

/-- The keys in use, in the order in which they first occur. -/
def keys (t : SymbolTable) : List String :=
  (t.pieces.map Piece.key).eraseDups

/-- The types, in the order of their first pieces. -/
def symbols (t : SymbolTable) : List Symbol :=
  t.keys.filterMap t.symbol?

theorem symbol?_eq_some_iff {t : SymbolTable} {key : String} {s : Symbol} :
    t.symbol? key = some s ↔ t.piecesOf key = s.pieces := by
  unfold symbol? Symbol.pieces
  cases t.piecesOf key with
  | nil => simp
  | cons first rest =>
    obtain ⟨f, r⟩ := s
    simp

/-- The type of a key has that key. -/
theorem key_of_symbol? {t : SymbolTable} {key : String} {s : Symbol}
    (h : t.symbol? key = some s) : s.key = key := by
  have mem : s.first ∈ t.piecesOf key := by
    rw [symbol?_eq_some_iff.1 h]
    exact List.mem_cons_self
  exact of_decide_eq_true (List.mem_filter.1 mem).2

/-- The type in which a type is nested. -/
def enclosing? (t : SymbolTable) (s : Symbol) : Option Symbol :=
  s.first.parent.bind t.symbol?

/-- A type has a longer key than the one in which it is nested. -/
theorem length_lt_of_enclosing? {t : SymbolTable} {s outer : Symbol}
    (h : t.enclosing? s = some outer) : outer.key.length < s.key.length := by
  obtain ⟨key, parent, found⟩ := Option.bind_eq_some_iff.1 h
  rw [key_of_symbol? found]
  exact s.first.parent_lt key parent

/-- The types around a type, outermost first. -/
def ancestors (t : SymbolTable) (s : Symbol) : List Symbol :=
  -- the equation is kept for the recursion, which is on the length of the key
  match _h : t.enclosing? s with
  | none => []
  | some outer => t.ancestors outer ++ [outer]
termination_by s.key.length
decreasing_by exact length_lt_of_enclosing? _h

/-- The types around a type, outermost first, and the type itself. -/
def chain (t : SymbolTable) (s : Symbol) : List Symbol :=
  t.ancestors s ++ [s]

/-- The outermost type around a type, or the type itself. -/
def outermost (t : SymbolTable) (s : Symbol) : Symbol :=
  (t.ancestors s).headD s

/-- The namespace of a type is the one written on the outermost type around it. What is written on
the type itself does not count if it is nested. -/
def namespace? (t : SymbolTable) (s : Symbol) : Option String :=
  (t.outermost s).first.head.ownNamespace?

/-- The names from the outermost type to the type itself, joined by points. -/
def nestedName (t : SymbolTable) (s : Symbol) : String :=
  ".".intercalate ((t.chain s).map Symbol.name)

end SymbolTable

end ValidatorGen

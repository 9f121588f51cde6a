import ValidatorGen.Json.Basic

/-!
# Declaration snapshots

A snapshot is what a host compiler says about the declarations of a program: for each source file
the type declarations in it, with their members, attributes and nested declarations. Names of
attributes, bases and argument types are already resolved.

One logical type may be declared in several pieces, in one file or in many. A snapshot lists the
pieces and does not join them. Joining is the business of the symbol table, which therefore
decides what *the same type* means: equal namespace, equal chain of outer types, equal name and
equal number of type parameters.

Names are plain texts throughout, as the host writes them. Only `global::` and the suffix of
attribute classes are ever taken off, each where it matters.
-/

namespace ValidatorGen

/-- A place in a source file. Zero stands for a line or a column that is not known. -/
structure Span where
  line : UInt32
  column : UInt32
  deriving Repr, DecidableEq, Inhabited

/-- An argument of an attribute, with the name of its type. -/
structure Argument where
  kind : String
  value : Json
  deriving Repr, Inhabited

/-- An attribute, with the full name of its class. -/
structure Attribute where
  name : String
  arguments : List Argument
  namedArguments : List (String × Json)
  deriving Repr, Inhabited

/-- A parameter of a method. Only how many there are decides anything. -/
structure Parameter where
  name : String
  type : String
  deriving Repr, DecidableEq, Inhabited

/-- The kinds of members that the host tells apart. -/
inductive MemberKind where
  | field
  | property
  | method
  | constructor
  | destructor
  | event
  | indexer
  | operator
  | conversion
  deriving Repr, DecidableEq, Inhabited

/-- A member of a type. Its type is the declared one, or the return type of a method. -/
structure Member where
  kind : MemberKind
  name : String
  type : Option String
  modifiers : List String
  attributes : List Attribute
  parameters : List Parameter
  hasBody : Bool
  span : Span
  deriving Repr, Inhabited

/-- The kinds of type declarations that the host tells apart. -/
inductive TypeKind where
  | classType
  | structType
  | interfaceType
  | recordClass
  | recordStruct
  | enumType
  | delegateType
  deriving Repr, DecidableEq, Inhabited

/-- A piece of a type apart from the declarations nested in it. The namespace counts only where a
piece is not nested. `symbol` says what the piece was resolved to. -/
structure TypeHead where
  kind : TypeKind
  name : String
  inNamespace : Option String
  modifiers : List String
  typeParameters : List String
  attributes : List Attribute
  baseList : List String
  members : List Member
  symbol : String
  span : Span
  deriving Repr, Inhabited

/-- One declaration piece of a type, with the pieces nested in it. -/
structure TypeDeclaration where
  head : TypeHead
  nested : List TypeDeclaration
  deriving Repr, Inhabited

/-- A file with the types declared at its top level, in the order of the text. -/
structure SourceFile where
  path : String
  types : List TypeDeclaration
  deriving Repr, Inhabited

/-- All the files of a program. -/
structure Compilation where
  files : List SourceFile
  deriving Repr, Inhabited

namespace MemberKind

/-- Constraints are looked for on fields and properties only. -/
def isData : MemberKind → Bool
  | .field | .property => true
  | _ => false

end MemberKind

namespace TypeKind

/-- Methods can be added to these types. -/
def isSupported : TypeKind → Bool
  | .classType | .structType | .interfaceType | .recordClass | .recordStruct => true
  | .enumType | .delegateType => false

/-- The words that declare such a type. -/
def keyword : TypeKind → String
  | .classType => "class"
  | .structType => "struct"
  | .interfaceType => "interface"
  | .recordClass => "record"
  | .recordStruct => "record struct"
  | .enumType => "enum"
  | .delegateType => "delegate"

end TypeKind

namespace Member

def hasModifier (m : Member) (modifier : String) : Bool :=
  m.modifiers.contains modifier

end Member

namespace TypeHead

/-- What a piece that declares a type is resolved to. Anything else, an error type above all, means
that the host could not make sense of the declaration. -/
def namedType : String := "named_type"

def hasModifier (t : TypeHead) (modifier : String) : Bool :=
  t.modifiers.contains modifier

def isNamedType (t : TypeHead) : Bool :=
  t.symbol == namedType

/-- How many type parameters there are. -/
def arity (t : TypeHead) : Nat :=
  t.typeParameters.length

/-- The members on which constraints are looked for. -/
def dataMembers (t : TypeHead) : List Member :=
  t.members.filter (·.kind.isData)

end TypeHead

namespace Compilation

/-- No files at all. -/
def empty : Compilation := ⟨[]⟩

/-- The files of one snapshot and then those of another. -/
def merge (a b : Compilation) : Compilation :=
  ⟨a.files ++ b.files⟩

@[simp]
theorem files_merge (a b : Compilation) : (a.merge b).files = a.files ++ b.files := rfl

end Compilation

end ValidatorGen

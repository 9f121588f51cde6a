import ValidatorGen.Diagnostic.Basic
import ValidatorGen.Symbol.Accessibility

/-!
# Which types can be given a validator

The conditions a type has to meet before anything is generated for it. They are looked at in a
fixed order, and the first one that fails gives the only diagnostic: `SymbolTable.violation?`.
A type that meets them may already declare the method as a stub to be completed:
`SymbolTable.eligible`.

The generated file declares one more piece of the type and of all types around it, and it declares
them public. That is where most conditions come from: the pieces must be partial, the types public
and of a sort that can be continued. What a type inherits or implements plays no part.

The method is called `Validate` and has no parameters. Beside it there can be methods of the same
name that do have parameters, and nothing else of that name: no field, no property, no nested type.
One method without parameters is welcome, if it is the declaration of the very method that is going
to be generated.
-/

namespace ValidatorGen

/-- The name of the generated method. -/
def validateName : String := "Validate"

/-- How the generated method relates to what is already declared. -/
inductive Mode where
  /-- The method is new. -/
  | fresh
  /-- The body is given to a method that is declared without one. -/
  | completeStub
  deriving Repr, DecidableEq

def Piece.location (p : Piece) : Location :=
  .ofSpan p.path p.span

namespace Member

/-- A method that has parameters does not get in the way of one that has none. -/
def isOverload (m : Member) : Bool :=
  m.kind = .method && !m.parameters.isEmpty

/-- Whether the member is of the Boolean type, which has three names. -/
def returnsBool (m : Member) : Bool :=
  ["bool", "System.Boolean", "global::System.Boolean"].any (m.type = some ·)

/-- Members of interfaces are public unless they say otherwise. -/
def isPublic (inInterface : Bool) (m : Member) : Bool :=
  match Accessibility.ofModifiers? m.modifiers with
  | some access => access = .publicAccess
  | none => inInterface

/-- The declaration of the method without its body. Every detail counts, since the generated part
has to fit it. -/
def isStub (inInterface : Bool) (m : Member) : Bool :=
  m.kind = .method && m.parameters.isEmpty && m.returnsBool && m.isPublic inInterface &&
    m.hasModifier "partial" && !m.hasBody

end Member

namespace Symbol

def isInterface (s : Symbol) : Bool :=
  s.kind = .interfaceType

/-- The members, each with the path of its file. -/
def members (s : Symbol) : List (String × Member) :=
  s.pieces.flatMap fun p => p.head.members.map (p.path, ·)

/-- The members that compete with the generated method. -/
def rivals (s : Symbol) : List (String × Member) :=
  s.members.filter fun (_, m) => m.name = validateName && !m.isOverload

/-- The first nested type that has the name of the method. No method of that name can stand beside
it. -/
def nestedRival? (s : Symbol) : Option Location :=
  s.pieces.findSome? fun p =>
    (p.nested.find? (·.name = validateName)).map fun nested => .ofSpan p.path nested.span

/-- How the method relates to the members that are there, or the place of the first one it
conflicts with. -/
def mode (s : Symbol) : Except Location Mode :=
  match s.nestedRival? with
  | some location => .error location
  | none =>
    match s.rivals with
    | [] => .ok .fresh
    | (path, member) :: others =>
      if others.isEmpty ∧ member.isStub s.isInterface then .ok .completeStub
      else .error (.ofSpan path member.span)

end Symbol

namespace SymbolTable

/-- The arguments of a message about a type. -/
def messageArguments (t : SymbolTable) (s : Symbol) : MessageArguments :=
  .ofType (t.namespace? s) (t.nestedName s)

/-- The diagnostic of the first condition that fails, other than that the method has a place. -/
def violation? (t : SymbolTable) (s : Symbol) : Option Diagnostic :=
  let arguments := t.messageArguments s
  let within (outer : Symbol) := arguments.withContaining (t.nestedName outer)
  let unsupported :=
    if s.kind.isSupported then none
    else some (.report .unsupportedTypeDeclaration s.first.location arguments)
  let unresolved :=
    (s.pieces.find? (!·.head.isNamedType)).map fun p =>
      .report .unknown p.location (arguments.withDetail p.head.symbol)
  let static :=
    (s.pieces.find? (·.head.hasModifier "static")).map fun p =>
      .report .staticType p.location arguments
  let hidden :=
    if t.isPublic s then none else some (.report .notPublic s.first.location arguments)
  let hiddenAround :=
    ((t.ancestors s).find? (!t.isPublic ·)).map fun outer =>
      .report .notPublicContainingType outer.first.location (within outer)
  let closed :=
    s.nonPartialPiece?.map fun p => .report .notPartial p.location arguments
  let closedAround :=
    (t.ancestors s).findSome? fun outer =>
      outer.nonPartialPiece?.map fun p =>
        .report .notPartialContainingType p.location (within outer)
  -- about a type that fails several conditions only the first one is told
  [unsupported, unresolved, static, hidden, hiddenAround, closed, closedAround].findSome? id

/-- The mode in which a type is given the method, or the one diagnostic that says why it cannot
be. -/
def eligible (t : SymbolTable) (s : Symbol) : Except Diagnostic Mode :=
  match t.violation? s with
  | some diagnostic => .error diagnostic
  | none =>
    s.mode.mapError fun location => .report .validateConflict location (t.messageArguments s)

end SymbolTable

end ValidatorGen

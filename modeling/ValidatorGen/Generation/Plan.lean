import ValidatorGen.Constraint
import ValidatorGen.Eligibility
import ValidatorGen.Generation.Layout

/-!
# Plans and the source they make

A plan says what is to be generated for one type: the types around it that have to be opened
again, the interface it is given, and the constraints the method checks. The source is one file
that declares another piece of the type.

All levels are written as public and partial, as those of an eligible type are. The interface is
given to the innermost level only, and with the alias of the global namespace, so that nothing in
the scope of the type can stand in for it. A type that declares the method without its body is given
the body; any other one is given a method. In an interface that is an explicit implementation, which
can have neither modifiers nor a name of its own.

The name of a file is made of the same parts as the full name of its type, with the type parameters
of each level. It is not always unique: a namespace and an outer type of one name look the same.

* `Plan.ofSymbol` — the plan for a type of a program;
* `Plan.steps` — the layout of its source;
* `Artifact.ofPlan` — the source with the names under which it is kept.
-/

namespace ValidatorGen

open Generation

/-- A type as it is opened again. -/
structure Level where
  kind : TypeKind
  name : String
  typeParameters : List String
  deriving Repr, DecidableEq

/-- What is to be generated for one type. The levels lead from the outermost type to the type
itself. -/
structure Plan where
  inNamespace : Option String
  levels : List Level
  capability : String
  mode : Mode
  constraints : List Constraint
  deriving Repr, DecidableEq

/-- A generated file. -/
structure Artifact where
  hintName : String
  typeName : String
  source : String
  deriving Repr, DecidableEq

namespace Level

def ofSymbol (s : Symbol) : Level :=
  ⟨s.kind, s.name, s.first.head.typeParameters⟩

/-- The line that opens the type. -/
def header (l : Level) : String :=
  let parameters :=
    if l.typeParameters.isEmpty then "" else "<" ++ ", ".intercalate l.typeParameters ++ ">"
  "public partial " ++ l.kind.keyword ++ " " ++ l.name ++ parameters

/-- The name with the type parameters in braces. -/
def hint (l : Level) : String :=
  if l.typeParameters.isEmpty then l.name
  else l.name ++ "\x7b" ++ ",".intercalate l.typeParameters ++ "\x7d"

end Level

namespace Plan

/-- The plan for a type. The interface is named without the alias of the global namespace. -/
def ofSymbol (t : SymbolTable) (s : Symbol) (capability : String) (mode : Mode)
    (constraints : List Constraint) : Plan where
  inNamespace := t.namespace? s
  levels := (t.chain s).map Level.ofSymbol
  capability := bareName capability
  mode := mode
  constraints := constraints

/-- Namespace and levels, joined by points. -/
def qualified (p : Plan) (name : Level → String) : String :=
  ".".intercalate (p.inNamespace.toList ++ p.levels.map name)

/-- The full name of the type. -/
def typeName (p : Plan) : String :=
  p.qualified Level.name

/-- The name of the file. -/
def hintName (p : Plan) : String :=
  p.qualified Level.hint ++ "." ++ validateName ++ ".g.cs"

/-- Whether the type itself is an interface. -/
def inInterface (p : Plan) : Bool :=
  (p.levels.getLast?.map Level.kind) = some .interfaceType

/-- The line that declares the method. -/
def signature (p : Plan) : String :=
  match p.mode, p.inInterface with
  | .fresh, true => "bool global::" ++ p.capability ++ "." ++ validateName ++ "()"
  | .fresh, false => "public bool " ++ validateName ++ "()"
  | .completeStub, _ => "public partial bool " ++ validateName ++ "()"

/-- The lines after the first of a conjunction; the last one ends the statement. -/
def furtherSteps : List Constraint → List Step
  | [] => []
  | [c] => [.line ("&& " ++ c.fragment ++ ";")]
  | c :: rest => .line ("&& " ++ c.fragment) :: furtherSteps rest

/-- The statement that returns whether all constraints hold. -/
def returnSteps : List Constraint → List Step
  -- a conjunction of nothing holds, though no plan of a pass has none
  | [] => [.line "return true;"]
  | [c] => [.line ("return " ++ c.fragment ++ ";")]
  | c :: rest => .line ("return " ++ c.fragment) :: .deeper :: (furtherSteps rest ++ [.shallower])

def methodSteps (p : Plan) : List Step :=
  .line p.signature :: (Layout.opening ++ returnSteps p.constraints ++ Layout.closing)

/-- The lines that open the levels. The innermost one is given the interface. -/
def openingSteps (p : Plan) : List Level → List Step
  | [] => []
  | [l] => .line (l.header ++ " : global::" ++ p.capability) :: Layout.opening
  | l :: rest => .line l.header :: (Layout.opening ++ openingSteps p rest)

/-- The layout of the whole file. -/
def steps (p : Plan) : List Step :=
  -- what is opened here is closed at the end, in the opposite order
  [.line "// <auto-generated/>", .line "// Generated by fast-validate"] ++
  (match p.inNamespace with
    | some name => .line ("namespace " ++ name) :: Layout.opening
    | none => []) ++
  p.openingSteps p.levels ++ p.methodSteps ++
  p.levels.flatMap (fun _ => Layout.closing) ++
  (if p.inNamespace.isSome then Layout.closing else [])

/-- The source with so many spaces for each level. -/
def source (indent : Nat) (p : Plan) : String :=
  Layout.render indent p.steps

/-- The source of several plans, written one after the other. -/
def combinedSource (indent : Nat) (plans : List Plan) : String :=
  Layout.render indent (plans.flatMap steps)

end Plan

namespace Artifact

def ofPlan (indent : Nat) (p : Plan) : Artifact :=
  ⟨p.hintName, p.typeName, p.source indent⟩

/-- An artifact as a document. -/
def toJson (a : Artifact) : Json :=
  .object
    [("hint_name", .string a.hintName),
     ("type_name", .string a.typeName),
     ("source", .string a.source)]

end Artifact

end ValidatorGen

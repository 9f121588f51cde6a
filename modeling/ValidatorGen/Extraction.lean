import ValidatorGen.Config
import ValidatorGen.Constraint
import ValidatorGen.Symbol.Candidate

/-!
# Attributes and the constraints they ask for

The attributes on the fields and properties of a type are gone through piece by piece, member by
member. An attribute whose name is one of the known three is a *finding*: it asks for a constraint,
or is dropped when an operand is missing or cannot be used. Attributes with other names are none of
our business, and neither are the attributes of methods and of other members.

Findings are found before any operand is read. That keeps two questions apart: which annotations a
type has, which depends on names only; and what each of them comes to. The second question has three
answers, for the text of a decimal operand can make the run be given up.

* `Finding.ofSymbol` — the annotations of a type, in the order of the source;
* `Finding.read` — an annotation with its operands;
* `Extraction.placed` — the constraints of a type, ready to be sorted.

Members are identified by name. If a type has two members of one name, the constraints on both are
those of one member, at the place of the first.
-/

namespace ValidatorGen

open Number (Abort Arithmetic)

/-- The constraints that attributes can ask for. -/
inductive ConstraintKind where
  | greaterThan
  | lessThan
  | between
  deriving Repr, DecidableEq

namespace ConstraintKind

/-- The constraint that an attribute of a name asks for. Should two of the known names be the same,
the first one in this order counts. -/
def ofName? (known : KnownSymbols) (name : String) : Option ConstraintKind :=
  if sameSymbol known.greaterThan name then some .greaterThan
  else if sameSymbol known.lessThan name then some .lessThan
  else if sameSymbol known.between name then some .between
  else none

end ConstraintKind

namespace Argument

/-- The operand an argument gives; none if its type is not the type of a number, or its value is not
one of this type. -/
def operand? [Arithmetic] (a : Argument) : Except Abort (Option Operand) :=
  match OperandKind.ofName? a.kind with
  | none => .ok none
  | some kind => Operand.ofJson kind a.value

end Argument

namespace Attribute

/-- The operand that the argument at an index gives. -/
def operand? [Arithmetic] (a : Attribute) (index : Nat) : Except Abort (Option Operand) :=
  match a.arguments[index]? with
  | none => .ok none
  | some argument => argument.operand?

/-- Whether a threshold itself is admitted. That is so only if the attribute says it in so many
words; anything but a plain truth value is taken for a no. -/
def isInclusive (a : Attribute) : Bool :=
  match Json.lookup? "Inclusive" a.namedArguments with
  | some (.bool b) => b
  | _ => false

/-- The constraint of a kind on a member, with the operands of the attribute. The second operand is
looked at only if there is a first; so a second one that would give the run up does no harm behind a
first one that is dropped. Between two ends nothing is inclusive. -/
def constraint? [Arithmetic] (a : Attribute) (kind : ConstraintKind) (member : String) :
    Except Abort (Option Constraint) := do
  match ← a.operand? 0 with
  | none => return none
  | some first =>
    match kind with
    | .greaterThan => return some (.bound ⟨member, first, .greater, a.isInclusive⟩)
    | .lessThan => return some (.bound ⟨member, first, .less, a.isInclusive⟩)
    | .between =>
      match ← a.operand? 1 with
      | none => return none
      | some second => return some (.range ⟨member, first, second⟩)

end Attribute

/-- An attribute that asks for a constraint: on which member, of which kind, and in which file. -/
structure Finding where
  path : String
  member : Member
  applied : Attribute
  kind : ConstraintKind

/-- A finding whose operands have been read: the constraint, unless it is dropped. -/
structure ReadFinding where
  path : String
  member : String
  attributeName : String
  span : Span
  constraint : Option Constraint
  deriving Repr

/-- The constraints on one member. -/
structure ConstrainedMember where
  name : String
  constraints : List Constraint
  deriving Repr

namespace Finding

/-- The findings on a member, in order. -/
def ofMember (known : KnownSymbols) (path : String) (member : Member) : List Finding :=
  member.attributes.filterMap fun applied =>
    (ConstraintKind.ofName? known applied.name).map (⟨path, member, applied, ·⟩)

/-- The findings on a type, in the order of pieces, members and attributes. -/
def ofSymbol (known : KnownSymbols) (s : Symbol) : List Finding :=
  s.pieces.flatMap fun p => p.head.dataMembers.flatMap (ofMember known p.path)

/-- Reads the operands. -/
def read [Arithmetic] (f : Finding) : Except Abort ReadFinding := do
  return {
    path := f.path
    member := f.member.name
    attributeName := f.applied.name
    span := f.member.span
    constraint := ← f.applied.constraint? f.kind f.member.name }

end Finding

/-- All findings on a type, read. -/
structure Extraction where
  findings : List ReadFinding
  deriving Repr

namespace Extraction

/-- Reads the findings on a type. -/
def ofSymbol [Arithmetic] (known : KnownSymbols) (s : Symbol) : Except Abort Extraction :=
  ((Finding.ofSymbol known s).mapM Finding.read).map Extraction.mk

/-- The findings that are dropped. -/
def dropped (e : Extraction) : List ReadFinding :=
  e.findings.filter (·.constraint.isNone)

/-- The constraints, in the order in which they were found. -/
def constraints (e : Extraction) : List Constraint :=
  e.findings.filterMap (·.constraint)

/-- The members that have constraints, in the order in which the first one of each was found. -/
def members (e : Extraction) : List ConstrainedMember :=
  -- dropped findings do not count, so a member with nothing but these has no place
  (e.constraints.map Constraint.member).eraseDups.map fun name =>
    ⟨name, e.constraints.filter (·.member = name)⟩

/-- The constraints with the places of their members. -/
def placed (e : Extraction) : List Placed :=
  e.members.zipIdx.flatMap fun (member, index) => member.constraints.map (⟨index, ·⟩)

end Extraction

end ValidatorGen

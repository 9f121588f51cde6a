import ValidatorGen.Operand

/-!
# Constraints

What a member's value has to satisfy: to lie on one side of a threshold, or strictly between two
ends. A constraint has a text, the *fragment*, that is an expression of the generated method, and
a meaning, the values it *admits*. The meaning is defined apart from the text; that they agree is
something to be proved.

A value that cannot be compared with a threshold satisfies no constraint, whichever direction it
has. That is how the operators of the fragments treat not-a-number.

Constraints are put in order by a key, so that the order does not depend on the order in which they
are found: `Placed.sort`. Its components are the cost of the check, the place of the member among
the constrained members, the form of the constraint, and its operands. The last component compares
operands by their total order, in which two operands can be equal that are spelled differently, such
as `1.5` and `1.50`. Constraints that only differ in this way keep the order in which they were
found.

* `Constraint.fragment` — the text;
* `Constraint.admits`, `Constraint.evaluate` — the meaning, of one constraint and of several;
* `ConstraintKey.compare`, `Placed.sort` — the order.
-/

namespace ValidatorGen

inductive Direction where
  | greater
  | less
  deriving Repr, DecidableEq

/-- A threshold for the value of a member. -/
structure Bound where
  member : String
  threshold : Operand
  direction : Direction
  inclusive : Bool
  deriving Repr, DecidableEq

/-- Two ends for the value of a member, both excluded. -/
structure Range where
  member : String
  low : Operand
  high : Operand
  deriving Repr, DecidableEq

inductive Constraint where
  | bound (bound : Bound)
  | range (range : Range)
  deriving Repr, DecidableEq

namespace Bound

/-- The comparison operator. -/
def operator (b : Bound) : String :=
  match b.direction, b.inclusive with
  | .greater, false => ">"
  | .greater, true => ">="
  | .less, false => "<"
  | .less, true => "<="

def fragment (b : Bound) : String :=
  "(" ++ b.member ++ " " ++ b.operator ++ " " ++ b.threshold.literal ++ ")"

/-- Whether a value satisfies the bound. A value that cannot be compared does not. -/
def admits (b : Bound) (value : Operand) : Bool :=
  match value.compare? b.threshold, b.direction with
  | none, _ => false
  | some .eq, _ => b.inclusive
  | some .gt, .greater => true
  | some .lt, .less => true
  | some .gt, .less | some .lt, .greater => false

end Bound

namespace Range

def fragment (r : Range) : String :=
  -- the ends are written low end first, whether or not it is the smaller one
  "(" ++ r.member ++ " > " ++ r.low.literal ++ " && " ++ r.member ++ " < " ++ r.high.literal ++ ")"

/-- Whether a value lies strictly between the ends. -/
def admits (r : Range) (value : Operand) : Bool :=
  value.compare? r.low = some .gt ∧ value.compare? r.high = some .lt

end Range

namespace Constraint

def member : Constraint → String
  | .bound b => b.member
  | .range r => r.member

def fragment : Constraint → String
  | .bound b => b.fragment
  | .range r => r.fragment

def admits (c : Constraint) (value : Operand) : Bool :=
  match c with
  | .bound b => b.admits value
  | .range r => r.admits value

/-- The form of a constraint as a number, in the order in which forms are written. -/
def shape : Constraint → Nat
  | .bound b =>
    match b.direction, b.inclusive with
    | .greater, false => 0
    | .greater, true => 1
    | .less, false => 2
    | .less, true => 3
  | .range _ => 4

/-- How costly a check is; cheap checks come first. Comparisons are all equally cheap, so this
component decides nothing until there are checks of other sorts. -/
def priority : Constraint → Nat
  | .bound _ | .range _ => 0

/-- The operands. -/
def operands : Constraint → Operand × Option Operand
  | .bound b => (b.threshold, none)
  | .range r => (r.low, some r.high)

end Constraint

/-- What constraints are sorted by. -/
structure ConstraintKey where
  priority : Nat
  memberIndex : Nat
  shape : Nat
  operands : Operand × Option Operand
  deriving Repr, DecidableEq

namespace ConstraintKey

/-- The order of second operands; one that is absent comes first. -/
def compareSecond : Option Operand → Option Operand → Ordering
  | none, none => .eq
  | none, some _ => .lt
  | some _, none => .gt
  | some a, some b => a.totalCompare b

/-- The order of keys, component by component. -/
def compare (a b : ConstraintKey) : Ordering :=
  -- each component is looked at only if the ones before it are equal
  (Ord.compare a.priority b.priority).then <|
  (Ord.compare a.memberIndex b.memberIndex).then <|
  (Ord.compare a.shape b.shape).then <|
  (a.operands.1.totalCompare b.operands.1).then <|
  compareSecond a.operands.2 b.operands.2

/-- Not after the other. -/
def le (a b : ConstraintKey) : Bool :=
  (a.compare b).isLE

end ConstraintKey

/-- A constraint with the place of its member among the constrained members. The place is not known
to the constraint, which has the name of the member only. -/
structure Placed where
  memberIndex : Nat
  constraint : Constraint
  deriving Repr, DecidableEq

namespace Placed

def key (p : Placed) : ConstraintKey where
  priority := p.constraint.priority
  memberIndex := p.memberIndex
  shape := p.constraint.shape
  operands := p.constraint.operands

/-- The constraints in the order of their keys; those with equal keys keep their order. -/
def sort (placed : List Placed) : List Constraint :=
  (placed.mergeSort fun a b => a.key.le b.key).map Placed.constraint

end Placed

/-- Whether all constraints hold of the values of their members. A member without a value satisfies
no constraint. -/
def Constraint.evaluate (constraints : List Constraint) (value? : String → Option Operand) : Bool :=
  constraints.all fun c => (value? c.member).any c.admits

end ValidatorGen

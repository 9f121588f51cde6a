import ValidatorGen.Json.Access
import ValidatorGen.Number.Decimal
import ValidatorGen.Symbol.Name
import ValidatorGen.Text.Blank

/-!
# Operands

The numbers a constraint compares with: integers of eight widths, binary numbers of two, and
decimals. An operand keeps the kind it was written with, since the kind decides how it is spelled
in source code. The kind comes from the type that is named beside the value, and never from the
value: `1` can be an operand of any kind.

There are two orders on operands, and they answer different questions.

* The *numeric* order is the one in which a check compares a value with a threshold. It is partial,
  because not-a-number is not comparable, and it makes numbers of different kinds equal. Integers
  and decimals are compared without rounding. As soon as a binary number is involved, both sides are
  made 64-bit binary numbers first.
* The *total* order puts constraints in a sequence that is the same in every run. It goes by kind
  before it looks at values, and it places not-a-number above all others.

Reading an operand either gives it, or drops what cannot be used, or gives the run up; the last is
for decimal texts only.

* `Operand.ofJson` — the operand of a kind that a JSON value gives;
* `Operand.literal` — the spelling in source code;
* `Operand.compare?` — the numeric order across kinds;
* `Operand.totalCompare` — a total order, used for sorting only.
-/

namespace ValidatorGen

open Number (Abort Arithmetic Binary Decimal Format tenTo twoTo)

/-- The integer types. -/
inductive IntegerKind where
  | int8
  | uint8
  | int16
  | uint16
  | int32
  | uint32
  | int64
  | uint64
  deriving Repr, DecidableEq

namespace IntegerKind

def isSigned : IntegerKind → Bool
  | .int8 | .int16 | .int32 | .int64 => true
  | .uint8 | .uint16 | .uint32 | .uint64 => false

def bits : IntegerKind → Nat
  | .int8 | .uint8 => 8
  | .int16 | .uint16 => 16
  | .int32 | .uint32 => 32
  | .int64 | .uint64 => 64

/-- The least value. -/
def low (k : IntegerKind) : Int :=
  if k.isSigned then -(twoTo (k.bits - 1) : Int) else 0

/-- The greatest value. -/
def high (k : IntegerKind) : Int :=
  if k.isSigned then twoTo (k.bits - 1) - 1 else twoTo k.bits - 1

/-- What follows the digits of a literal. -/
def suffix : IntegerKind → String
  | .uint32 => "U"
  | .int64 => "L"
  | .uint64 => "UL"
  | _ => ""

end IntegerKind

/-- The kinds of operands. -/
inductive OperandKind where
  | integer (kind : IntegerKind)
  | single
  | double
  | decimal
  deriving Repr, DecidableEq

namespace OperandKind

/-- The kinds in their order, each with its keyword and the name of its type. Both names are
accepted where a kind is asked for, and the order is the one in which operands of different kinds
are sorted. -/
def table : List (OperandKind × String × String) :=
  [(.integer .int8, "sbyte", "System.SByte"),
   (.integer .uint8, "byte", "System.Byte"),
   (.integer .int16, "short", "System.Int16"),
   (.integer .uint16, "ushort", "System.UInt16"),
   (.integer .int32, "int", "System.Int32"),
   (.integer .uint32, "uint", "System.UInt32"),
   (.integer .int64, "long", "System.Int64"),
   (.integer .uint64, "ulong", "System.UInt64"),
   (.single, "float", "System.Single"),
   (.double, "double", "System.Double"),
   (.decimal, "decimal", "System.Decimal")]

/-- The kind of a type that is given by its keyword or by its full name. -/
def ofName? (name : String) : Option OperandKind :=
  let name := bareName name
  (table.find? fun (_, keyword, full) => name = keyword ∨ name = full).map Prod.fst

/-- The place in the order of kinds. -/
def index (k : OperandKind) : Nat :=
  table.findIdx fun (kind, _, _) => kind = k

end OperandKind

/-- A number of one of the kinds. Integers carry a proof that their kind has them, so none has to be
checked again when it is written or compared. -/
inductive Operand where
  | integer (kind : IntegerKind) (value : Int) (inRange : kind.low ≤ value ∧ value ≤ kind.high)
  | single (value : Binary .single)
  | double (value : Binary .double)
  | decimal (value : Decimal)
  deriving Repr, DecidableEq

namespace Operand

def kind : Operand → OperandKind
  | .integer kind _ _ => .integer kind
  | .single _ => .single
  | .double _ => .double
  | .decimal _ => .decimal

/-! ## Reading -/

/-- An integer of a kind, if it is in range. -/
def ofInt? (kind : IntegerKind) (value : Int) : Option Operand :=
  if h : kind.low ≤ value ∧ value ≤ kind.high then some (.integer kind value h) else none

/-- The binary number that a JSON number or one of four words stands for. Documents have no numbers
for the words, which are spelled as source code would print them. -/
def binary? : Json → Option (Binary .double)
  | .number n => some n.toDouble
  | .string "NaN" => some .nan
  | .string "Infinity" | .string "+Infinity" => some (.infinite false)
  | .string "-Infinity" => some (.infinite true)
  | _ => none

/-- A binary number narrowed to 32 bits, unless that makes a finite number infinite. A number that
was infinite before stays so. -/
def narrow? (wide : Binary .double) : Option (Binary .single) :=
  let narrow := wide.convert .single
  if wide.isFinite ∧ !narrow.isFinite then none else some narrow

/-- The text of a decimal: that of a string, trimmed, or that of a number. -/
def decimalText? : Json → Option (List Char)
  | .string s => some (Text.trim s.toList)
  | .number n => some n.toChars
  | _ => none

/-- The operand of a kind that a JSON value gives, if it gives one. -/
def ofJson [Arithmetic] (kind : OperandKind) (value : Json) : Except Abort (Option Operand) :=
  match kind with
  | .integer kind =>
    match value with
    -- a number with a point or an exponent is not an integer, even if its value is whole
    | .number (.integer n _) => .ok (ofInt? kind n)
    | _ => .ok none
  | .single => .ok (((binary? value).bind narrow?).map .single)
  | .double => .ok ((binary? value).map .double)
  | .decimal =>
    match decimalText? value with
    | none => .ok none
    | some text => (Decimal.read text).map (Option.map .decimal)

/-! ## Spelling -/

/-- From here on binary numbers are spelled with an exponent. -/
def positionalLimit : Binary .double :=
  .ofRatio .double false (tenTo 16) 1

/-- Below here binary numbers other than zero are spelled with an exponent. -/
def positionalFloor : Binary .double :=
  .ofRatio .double false 1 (tenTo 5)

/-- The digits of a finite magnitude: the fewest that read back, a half going up. -/
def magnitudeChars (f : Format) (rank : Fin f.ranks) : List Char :=
  if rank.val = 0 then ['0']
  else
    let digits := Number.shortest f .up rank
    -- the limits are 64-bit numbers, so a magnitude of 32 bits is widened first, which is exact
    let size := ((Binary.finite false rank).convert .double).magnitude
    if positionalFloor.magnitude ≤ size ∧ size < positionalLimit.magnitude then digits.positional
    else digits.withExponent false

/-- The spelling of a binary number. Numbers that are not finite are named members of their type. -/
def binaryLiteral {f : Format} (keyword suffix : String) : Binary f → String
  | .nan => keyword ++ ".NaN"
  | .infinite false => keyword ++ ".PositiveInfinity"
  | .infinite true => keyword ++ ".NegativeInfinity"
  | .finite negative rank =>
    String.ofList ((if negative then ['-'] else []) ++ magnitudeChars f rank) ++ suffix

/-- The digits of an integer, after a sign if it is negative. -/
def integerChars (n : Int) : List Char :=
  (if n < 0 then ['-'] else []) ++ Nat.toDigits 10 n.natAbs

/-- The spelling of an operand in source code. -/
def literal : Operand → String
  | .integer kind value _ => String.ofList (integerChars value) ++ kind.suffix
  | .single value => binaryLiteral "float" "F" value
  | .double value => binaryLiteral "double" "D" value
  | .decimal value => String.ofList value.toChars ++ "M"

/-! ## Order -/

/-- The exact value of an integer or a decimal: a whole number, and the power of ten it is divided
by. -/
def exactValue? : Operand → Option (Int × Nat)
  | .integer _ value _ => some (value, 0)
  | .decimal d => some (d.signedMantissa, d.scale)
  | .single _ | .double _ => none

/-- The order of two whole numbers, each divided by a power of ten. -/
def compareScaled (a b : Int × Nat) : Ordering :=
  compare (a.1 * tenTo b.2) (b.1 * tenTo a.2)

/-- The 64-bit binary number that stands for an operand. -/
def toDouble : Operand → Binary .double
  | .integer _ value _ => .ofInt .double value
  | .single value => value.convert .double
  | .double value => value
  | .decimal d => d.toDouble

/-- The numeric order. Integers and decimals are compared exactly, all else as binary numbers; none
if one of them is not a number. -/
def compare? (a b : Operand) : Option Ordering :=
  match a.exactValue?, b.exactValue? with
  -- cross-multiplied, so that no side is rounded
  | some x, some y => some (compareScaled x y)
  | _, _ => a.toDouble.compare? b.toDouble

/-- The order of two operands of one kind; operands of different kinds are left equal. -/
def compareValue : Operand → Operand → Ordering
  | .integer _ a _, .integer _ b _ => compare a b
  | .single a, .single b => a.totalCompare b
  | .double a, .double b => a.totalCompare b
  | .decimal a, .decimal b => a.compare b
  | _, _ => .eq

/-- A total order: by kind, then by value. -/
def totalCompare (a b : Operand) : Ordering :=
  (compare a.kind.index b.kind.index).then (a.compareValue b)

end Operand

end ValidatorGen

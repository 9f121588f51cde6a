import ValidatorGen.Number.Layout

/-!
# JSON values

Values keep the order of the members of an object. A number is an integer when it was written
without fraction and exponent and fits 64 bits, and a finite 64-bit binary number otherwise; the
two never mix, so `1` and `1.0` are different values. The snapshots, the expected diagnostics and
the operands of attributes all come through these values, so what an operand can be is decided
here: no NaN and no infinity has a JSON text.

An object is a list of members, not a map. Whether a name stands twice is a question for the
readers: the text reader of records refuses it, `Json.insert` keeps the first place and the last
value.

* `Json.Number.toChars` — how a number is written, in the shortest text that is read back as it;
* `Json.lookup?`, `Json.insert` — members by name.
-/

namespace ValidatorGen

/-- A JSON number. The range of an integer is that of signed and unsigned 64-bit words together, so
that both have their place without a sign of their own. -/
inductive Json.Number where
  | integer (value : Int) (inRange : -0x8000000000000000 ≤ value ∧ value < 0x10000000000000000)
  | float (negative : Bool) (rank : Fin Number.Format.double.ranks)
  deriving Repr, DecidableEq

/-- A value without parts. Messages about a value that has the wrong kind show scalars only. -/
inductive Json.Scalar where
  | null
  | bool (value : Bool)
  | number (value : Json.Number)
  | string (value : String)
  deriving Repr, DecidableEq

/-- A JSON value. -/
inductive Json where
  | null
  | bool (value : Bool)
  | number (value : Json.Number)
  | string (value : String)
  | array (items : List Json)
  | object (members : List (String × Json))
  deriving Repr, Inhabited

namespace Json

open ValidatorGen.Number (Binary Format Scientific)

namespace Number

/-- The nearest 64-bit binary number. -/
def toDouble : Number → Binary .double
  | .integer value _ => .ofInt .double value
  | .float negative rank => .finite negative rank

/-- The value, when it is an integer that fits a signed 64-bit word. -/
def signed? : Number → Option Int
  | .integer value _ => if value < 0x8000000000000000 then some value else none
  | .float .. => none

/-- The value, when it is an integer that fits an unsigned 64-bit word. -/
def unsigned? : Number → Option Nat
  | .integer value _ => if 0 ≤ value then some value.toNat else none
  | .float .. => none

/-- A binary number is written positionally, always with a fraction, when its first digit stands
for a power of ten from `10 ^ -5` to `10 ^ 15`, and with a signed exponent otherwise. -/
def floatChars (d : Scientific) : List Char :=
  if -5 ≤ d.leading ∧ d.leading ≤ 15 then
    if 0 ≤ d.exponent then d.positional ++ ['.', '0'] else d.positional
  else d.withExponent true

/-- The text of a number. Of two equally short decimal texts of a binary number the even one is
written; operands are written by the other rule, so a number need not look the same in a message
and in an emitted condition. -/
def toChars : Number → List Char
  | .integer value _ => (if value < 0 then ['-'] else []) ++ Nat.toDigits 10 value.natAbs
  | .float negative rank =>
    (if negative then ['-'] else []) ++
      if rank.val = 0 then ['0', '.', '0']
      else floatChars (ValidatorGen.Number.shortest .double .even rank)

def toString (n : Number) : String :=
  String.ofList n.toChars

end Number

/-- A scalar as a value. -/
def ofScalar : Scalar → Json
  | .null => .null
  | .bool b => .bool b
  | .number n => .number n
  | .string s => .string s

/-- A natural number, if it fits 64 bits. -/
def ofNat? (n : Nat) : Option Json :=
  if h : (n : Int) < 0x10000000000000000 then some (.number (.integer n ⟨by omega, h⟩)) else none

/-- A number that fits 32 bits. -/
def ofUInt32 (n : UInt32) : Json :=
  .number (.integer n.toNat ⟨by omega, by have := n.toNat_lt; omega⟩)

/-- A number that fits 64 bits. -/
def ofUInt64 (n : UInt64) : Json :=
  .number (.integer n.toNat ⟨by omega, by have := n.toNat_lt; omega⟩)

/-- The member of a name in a list of members, the first one if there are several. -/
def lookup? (name : String) : List (String × Json) → Option Json
  | [] => none
  | (key, value) :: rest => if key = name then some value else lookup? name rest

/-- Sets a member: a name that is there keeps its place and takes the new value, a new one goes to
the end. -/
def insert (name : String) (value : Json) : List (String × Json) → List (String × Json)
  | [] => [(name, value)]
  | (key, old) :: rest =>
    if key = name then (key, value) :: rest else (key, old) :: insert name value rest

/-- The member of a name, when the value is an object. -/
def member? (name : String) : Json → Option Json
  | .object members => lookup? name members
  | _ => none

end Json

end ValidatorGen

import ValidatorGen.Json.Writer
import ValidatorGen.Number.Decimal

/-!
# Values of filters

A filter computes with JSON values. Numbers are of three sorts: whole numbers of 64 bits, on which
it computes exactly; binary numbers, which are results; and numbers that have only been written
down, which keep their text until something is computed with them.

Operations on values fail where they make no sense. Nothing can be looked up in null.

A numeral that is only passed on keeps its text, which is why numerals are a sort of their own: the
`1.50` of a filter is written `1.50` in its output, and `1.5` once something has been added to it.
-/

namespace ValidatorGen.Filter

open Number (Binary Literal)

/-- A value that filters compute with. -/
inductive Value where
  | null
  | bool (value : Bool)
  | integer (value : Int)
  | float (value : Binary .double)
  /-- A number by its text. -/
  | numeral (text : List Char)
  | string (value : String)
  | array (items : List Value)
  | object (members : List (String × Value))

instance : Inhabited Value := ⟨.null⟩

/-- Why a filter fails while it runs. -/
inductive Fault where
  | notIndexable
  | notIterable
  | notSliceable
  | outOfBounds
  | noLength
  | noKeys
  | badOperands
  | notAPath
  | raised
  deriving Repr, DecidableEq

def Fault.message : Fault → String
  | .notIndexable => "cannot index"
  | .notIterable => "cannot iterate"
  | .notSliceable => "cannot slice"
  | .outOfBounds => "index is out of bounds"
  | .noLength => "value has no length"
  | .noKeys => "value has no keys"
  | .badOperands => "cannot calculate"
  | .notAPath => "not a path"
  | .raised => "error raised by the filter"

/-- One output of a filter. -/
abbrev Output := Except Fault Value

namespace Value

/-! ## Numbers -/

/-- Whole numbers that are kept exactly. -/
def fitsWord (n : Int) : Bool :=
  -0x8000000000000000 ≤ n && n < 0x8000000000000000

/-- The binary number nearest to a numeral. Exponents of more than four hundred leave the range of
the format, whatever the digits in front of them are. -/
def nearest (text : List Char) : Binary .double :=
  match Literal.parse? text with
  | none => .nan
  | some l =>
    let digits := l.whole ++ l.fraction
    let mantissa := Literal.valueOf digits
    let exponent : Int := match l.exponent with
      | none => 0
      | some (negative, ds) => if negative then -(Literal.valueOf ds : Int) else Literal.valueOf ds
    let power := exponent - l.fraction.length
    -- These bounds are far outside the range, and keep the powers of ten small that are computed.
    if mantissa = 0 ∨ power + digits.length < -400 then
      .finite l.negative ⟨0, Number.Format.double_ranks_pos⟩
    else if power > 400 then .infinite l.negative
    else if power < 0 then .ofRatio .double l.negative mantissa (Number.tenTo power.natAbs)
    else .ofRatio .double l.negative (mantissa * Number.tenTo power.natAbs) 1

/-- A number as a binary number. -/
def binary? : Value → Option (Binary .double)
  | .integer n => some (.ofInt .double n)
  | .float x => some x
  | .numeral text => some (nearest text)
  | _ => none

/-- A JSON number. Whole numbers that fit a signed word are kept exactly. -/
def ofNumber (n : Json.Number) : Value :=
  match n.signed? with
  | some i => .integer i
  | none => .numeral n.toChars

/-- The text of a binary number; null for one that is not finite. -/
def floatText : Binary .double → String
  | .finite negative rank => (Json.Number.float negative rank).toString
  | _ => "null"

/-! ## JSON -/

mutual

/-- A document as a value. -/
def ofJson : Json → Value
  | .null => .null
  | .bool b => .bool b
  | .number n => ofNumber n
  | .string s => .string s
  | .array items => .array (ofItems items)
  | .object members => .object (ofMembers members)

def ofItems : List Json → List Value
  | [] => []
  | item :: rest => ofJson item :: ofItems rest

def ofMembers : List (String × Json) → List (String × Value)
  | [] => []
  | (name, value) :: rest => (name, ofJson value) :: ofMembers rest

end

mutual

/-- The JSON text of a value. -/
def text : Value → String
  | .null => "null"
  | .bool true => "true"
  | .bool false => "false"
  | .integer n => toString n
  | .float x => floatText x
  | .numeral cs => String.ofList cs
  | .string s => Json.stringText s
  | .array items => "[" ++ ",".intercalate (itemTexts items) ++ "]"
  | .object members => "\x7b" ++ ",".intercalate (memberTexts members) ++ "\x7d"

def itemTexts : List Value → List String
  | [] => []
  | item :: rest => item.text :: itemTexts rest

def memberTexts : List (String × Value) → List String
  | [] => []
  | (name, value) :: rest => (Json.stringText name ++ ":" ++ value.text) :: memberTexts rest

end

/-! ## Order -/

/-- Null and false count as no, all else as yes. -/
def holds : Value → Bool
  | .null | .bool false => false
  | _ => true

/-- The place of a sort of values in the order of sorts. -/
def sort : Value → Nat
  | .null => 0
  | .bool _ => 1
  | .integer _ | .float _ | .numeral _ => 2
  | .string _ => 3
  | .array _ => 4
  | .object _ => 5

mutual

/-- The value with the members of all objects in the order of their names. -/
def sorted : Value → Value
  | .array items => .array (sortedItems items)
  | .object members => .object ((sortedMembers members).mergeSort fun a b => a.1 ≤ b.1)
  | value => value

def sortedItems : List Value → List Value
  | [] => []
  | item :: rest => item.sorted :: sortedItems rest

def sortedMembers : List (String × Value) → List (String × Value)
  | [] => []
  | (name, value) :: rest => (name, value.sorted) :: sortedMembers rest

end

/-- The order of numbers: exact between whole numbers, as binary numbers otherwise. -/
def compareNumbers (a b : Value) : Ordering :=
  match a, b with
  | .integer x, .integer y => compare x y
  | a, b => ((a.binary?.bind fun x => b.binary?.map x.totalCompare)).getD .eq

/-- The order of two lists of names. -/
def compareNames : List String → List String → Ordering
  | [], [] => .eq
  | [], _ :: _ => .lt
  | _ :: _, [] => .gt
  | a :: as, b :: bs => (compare a b).then (compareNames as bs)

mutual

/-- The order of values whose objects are sorted: lists item by item, objects by their names and
then by their values. -/
def compareSorted : Value → Value → Ordering
  | .bool a, .bool b => compare a b
  | .string a, .string b => compare a b
  | .array as, .array bs => compareItems as bs
  | .object as, .object bs =>
    (compareNames (as.map Prod.fst) (bs.map Prod.fst)).then (compareMembers as bs)
  | a, b => if a.sort = 2 ∧ b.sort = 2 then compareNumbers a b else compare a.sort b.sort

def compareItems : List Value → List Value → Ordering
  | [], [] => .eq
  | [], _ :: _ => .lt
  | _ :: _, [] => .gt
  | a :: as, b :: bs => (compareSorted a b).then (compareItems as bs)

def compareMembers : List (String × Value) → List (String × Value) → Ordering
  | [], _ => .eq
  | _ :: _, [] => .gt
  | (_, a) :: as, (_, b) :: bs => (compareSorted a b).then (compareMembers as bs)

end

/-- The order of values. -/
def order (a b : Value) : Ordering :=
  compareSorted a.sorted b.sorted

/-! ## Members -/

/-- The value of a member. -/
def lookup? (name : String) (members : List (String × Value)) : Option Value :=
  (members.find? (·.1 = name)).map Prod.snd

/-- Sets a member, in its place or at the end. -/
def insert (name : String) (value : Value) : List (String × Value) → List (String × Value)
  | [] => [(name, value)]
  | (key, old) :: rest =>
    if key = name then (key, value) :: rest else (key, old) :: insert name value rest

/-- Takes a member away; the last member takes its place, so the order of the others can change. -/
def remove (name : String) (members : List (String × Value)) : List (String × Value) :=
  match members.findIdx? (·.1 = name), members.getLast? with
  | some i, some last => (members.set i last).dropLast
  | _, _ => members

/-! ## Arithmetic -/

/-- An operation on numbers: exact on whole numbers if the result is one that is kept, otherwise on
binary numbers. -/
def calculate (exactly : Int → Int → Int)
    (nearly : Binary .double → Binary .double → Binary .double) (a b : Value) : Output :=
  match a, b with
  | .integer x, .integer y =>
    if fitsWord (exactly x y) then .ok (.integer (exactly x y))
    else .ok (.float (nearly (.ofInt .double x) (.ofInt .double y)))
  | a, b =>
    match a.binary?, b.binary? with
    | some x, some y => .ok (.float (nearly x y))
    | _, _ => .error .badOperands

/-- Null adds nothing; texts and lists are joined, and the members of the second object are set in
the first. -/
def add : Value → Value → Output
  | .null, b => .ok b
  | a, .null => .ok a
  | .string a, .string b => .ok (.string (a ++ b))
  | .array a, .array b => .ok (.array (a ++ b))
  | .object a, .object b => .ok (.object (b.foldl (fun ms m => insert m.1 m.2 ms) a))
  | a, b => calculate (· + ·) Binary.add a b

/-- Lists lose the items that the other list has. -/
def subtract : Value → Value → Output
  | .array a, .array b => .ok (.array (a.filter fun x => !b.any fun y => x.order y == .eq))
  | a, b => calculate (· - ·) (fun x y => x.add y.neg) a b

mutual

/-- The members of the second value set in the first, and so on inside. -/
def merge (a : Value) : Value → Value
  | .object new =>
    match a with
    | .object old => .object (mergeMembers old new)
    | _ => .object new
  | b => b

def mergeMembers (old : List (String × Value)) : List (String × Value) → List (String × Value)
  | [] => old
  | (name, value) :: rest =>
    let merged := match lookup? name old with
      | some before => merge before value
      | none => value
    mergeMembers (insert name merged old) rest

end

/-- Texts are repeated, and objects merged. -/
def multiply : Value → Value → Output
  | .object a, .object b => .ok (merge (.object a) (.object b))
  | .string s, .integer n | .integer n, .string s =>
    .ok (if 0 < n then .string (String.join (List.replicate n.toNat s)) else .null)
  | a, b => calculate (· * ·) Binary.mul a b

def negate : Value → Output
  | .integer n => .ok (if fitsWord (-n) then .integer (-n) else .float (Binary.ofInt .double (-n)))
  | .float x => .ok (.float x.neg)
  | .numeral text => .ok (.float (nearest text).neg)
  | _ => .error .badOperands

/-! ## Properties -/

def typeName : Value → String
  | .null => "null"
  | .bool _ => "boolean"
  | .integer _ | .float _ | .numeral _ => "number"
  | .string _ => "string"
  | .array _ => "array"
  | .object _ => "object"

/-- The magnitude of a binary number. -/
def magnitude : Binary .double → Binary .double
  | .finite _ rank => .finite false rank
  | .infinite _ => .infinite false
  | .nan => .nan

/-- The number of characters, items or members; the magnitude of a number. -/
def length : Value → Output
  | .null => .ok (.integer 0)
  | .bool _ => .error .noLength
  | .integer n => .ok (.integer n.natAbs)
  | .float x => .ok (.float (magnitude x))
  | .numeral text => .ok (.float (magnitude (nearest text)))
  | .string s => .ok (.integer s.length)
  | .array items => .ok (.integer items.length)
  | .object members => .ok (.integer members.length)

/-- The indexes of a list, or the sorted names of an object. -/
def keys : Value → Output
  | .array items => .ok (.array ((List.range items.length).map fun (i : Nat) => .integer i))
  | .object members =>
    .ok (.array (((members.map Prod.fst).mergeSort (· ≤ ·)).map .string))
  | _ => .error .noKeys

/-- The items of a list or the values of an object. -/
def values : Value → Except Fault (List Value)
  | .array items => .ok items
  | .object members => .ok (members.map Prod.snd)
  | _ => .error .notIterable

/-- Whether a list has an item at an index, or an object a member of a name. -/
def has (v key : Value) : Except Fault Bool :=
  match v, key with
  | .array items, .integer i =>
    if 0 ≤ i then .ok (i < items.length) else .error .notIndexable
  | .object members, .string name => .ok (lookup? name members).isSome
  | _, _ => .error .notIndexable

/-- The items of a list or the values of an object, added up. -/
def sum (v : Value) : Output := do
  (← v.values).foldlM add .null

end Value

end ValidatorGen.Filter

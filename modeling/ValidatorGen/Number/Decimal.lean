import ValidatorGen.Number.Binary
import ValidatorGen.Number.Word
import ValidatorGen.Text.DecimalDigit

/-!
# Scaled decimals

A decimal is a whole number below `2 ^ 96` divided by a power of ten up to `10 ^ 28`. The scale
belongs to the value: `1.50` and `1.5` are equal in the numeric order and print differently.

Decimal text is read by way of other text, and no number is computed from its exponent. The exponent
only moves the point among the digits, with zeros in the places that become empty. What results is
*positional* text, and this has to have an exact decimal: nothing is rounded, so digits that are too
many make the text stand for no decimal at all.

Two things about this way of reading are easily overlooked.

* Digits are those of any script in the grammar, and places among them are counted in bytes. Text
  with digits outside of ASCII is refused in the end, but before that the point may have come to lie
  inside of one digit, where the text cannot be divided. Then the run is given up.
* The exponent and the place of the point are numbers of 32 bits. For all but extreme texts this
  makes no difference; see `Arithmetic` for what happens in those.

* `Literal.parse?` — the grammar of decimal text: sign, digits, fraction, exponent;
* `Literal.point`, `Literal.positional` — the text without its exponent, by moving the point;
* `Literal.expand`, `Literal.toDecimal` — the decimal a text stands for, if it is in range;
* `Decimal.toChars` — the text of a decimal, from which it can be read again;
* `Decimal.compare` — the order of the values;
* `Decimal.toDouble` — the 64-bit binary number that stands for a decimal.
-/

namespace ValidatorGen.Number

/-- A signed whole number of at most 96 bits, divided by `10 ^ scale`. Zero has no sign. -/
structure Decimal where
  negative : Bool
  mantissa : Nat
  scale : Nat
  mantissa_lt : mantissa < 0x1000000000000000000000000
  scale_le : scale ≤ 28
  zero_unsigned : mantissa = 0 → negative = false
  deriving Repr, DecidableEq

namespace Decimal

/-- The decimal with this sign, mantissa and scale, if they are in range. -/
def ofParts? (negative : Bool) (mantissa scale : Nat) : Option Decimal :=
  if h : mantissa < 0x1000000000000000000000000 ∧ scale ≤ 28 then
    some
      { negative := negative && mantissa ≠ 0
        mantissa, scale
        mantissa_lt := h.1
        scale_le := h.2
        zero_unsigned := by simp +contextual }
  else none

/-- The mantissa with its sign. -/
def signedMantissa (d : Decimal) : Int :=
  if d.negative then -(d.mantissa : Int) else d.mantissa

/-- The order of the values, by cross-multiplication. -/
def compare (a b : Decimal) : Ordering :=
  Ord.compare (a.signedMantissa * tenTo b.scale) (b.signedMantissa * tenTo a.scale)

/-- Text with as many fraction digits as the scale and at least one digit before the point. So the
scale can be told from the text, and zeros at the end are neither added nor lost. -/
def toChars (d : Decimal) : List Char :=
  let digits := Nat.toDigits 10 d.mantissa
  -- zeros in front, if the mantissa has no digit that would stand before the point
  let padded := List.replicate (d.scale + 1 - digits.length) '0' ++ digits
  let whole := padded.take (padded.length - d.scale)
  let fraction := padded.drop (padded.length - d.scale)
  (if d.negative then ['-'] else []) ++ whole ++ (if d.scale = 0 then [] else '.' :: fraction)

/-- The 64-bit number that stands for a decimal. Whole part and fraction are rounded apart and
added; the sum is then rounded to as many decimal places as the scale has. -/
def toDouble (d : Decimal) : Binary .double :=
  let unsigned :=
    if d.scale = 0 then .ofInt .double d.mantissa
    else
      let power := tenTo d.scale
      -- the two parts are rounded before they are added, so the sum may be off by a unit
      let whole : Binary .double := .ofInt .double ((d.mantissa / power : Nat) : Int)
      let fraction := (Binary.ofInt .double ((d.mantissa % power : Nat) : Int)).div
        (.tenPow .double d.scale)
      if fraction.isZero then whole
      else
        -- digits that only come from rounding are taken away again
        let step := Binary.tenPow .double d.scale
        ((whole.add fraction).mul step).round.div step
  if d.negative then unsigned.neg else unsigned

end Decimal

/-- Decimal text taken apart. The digits may be of any script. -/
structure Literal where
  negative : Bool
  whole : List Char
  fraction : List Char
  /-- The sign and the digits after the exponent mark, if there is one. -/
  exponent : Option (Bool × List Char)
  deriving Repr, DecidableEq

namespace Literal

variable [Arithmetic]

/-- A sign at the front, and what follows it. -/
def takeSign : List Char → Bool × List Char
  | '-' :: rest => (true, rest)
  | '+' :: rest => (false, rest)
  | cs => (false, cs)

/-- The fraction after a point; without a point it is empty. A point needs a digit after it, but
none before it. -/
def takeFraction? : List Char → Option (List Char × List Char)
  | '.' :: rest =>
    match rest.span isDecimal with
    | ([], _) => none
    | split => some split
  | cs => some ([], cs)
where
  isDecimal := Text.isDecimalDigit

/-- The exponent that ends the text: a mark, a sign and at least one digit, or nothing at all. -/
def takeExponent? : List Char → Option (Option (Bool × List Char))
  | [] => some none
  | mark :: rest =>
    if mark = 'e' ∨ mark = 'E' then
      let (negative, digits) := takeSign rest
      if digits ≠ [] ∧ digits.all Text.isDecimalDigit then some (some (negative, digits)) else none
    else none

/-- The grammar of decimal text: a sign, digits, a point with digits and an exponent, each of which
may be missing, but not all digits before the exponent. -/
def parse? (cs : List Char) : Option Literal := do
  -- no part can begin with what may stand in the part before it, so nothing is ever taken back
  let (negative, rest) := takeSign cs
  let (whole, rest) := rest.span Text.isDecimalDigit
  let (fraction, rest) ← takeFraction? rest
  let exponent ← takeExponent? rest
  if whole = [] ∧ fraction = [] then none
  else some { negative, whole, fraction, exponent }

/-- The number that ASCII digits stand for. -/
def valueOf (digits : List Char) : Nat :=
  digits.foldl (fun n c => 10 * n + (c.toNat - '0'.toNat)) 0

/-- The largest exponent that is looked at. Larger ones are meant to lead out of the range of
decimals with any digits. -/
def maxExponent : Nat := 64

/-- The exponent, if it is written in ASCII and fits 32 bits; zero when there is none. Unlike the
digits before it, the digits of an exponent are read as a number. -/
def writtenExponent? (l : Literal) : Option Int :=
  match l.exponent with
  | none => some 0
  | some (negative, digits) =>
    let value : Int := if negative then -(valueOf digits : Int) else valueOf digits
    if digits.all Char.isDigit ∧ -0x80000000 ≤ value ∧ value < 0x80000000 then some value else none

/-- The exponent, if it is of moderate size. The size is a number of 32 bits as well, which the size
of the least exponent is not: a build that does not check its arithmetic takes that exponent for a
moderate one. -/
def exponentValue? (l : Literal) : Except Abort (Option Int) :=
  match l.writtenExponent? with
  | none => .ok none
  | some exponent => (settle exponent.natAbs).map fun size : Int =>
    if size ≤ maxExponent then some exponent else none

/-- How many bytes a text takes. -/
def byteLength (cs : List Char) : Nat :=
  cs.foldl (fun n c => n + c.utf8Size) 0

/-- The text divided at a place counted in bytes, unless the place falls inside a character. -/
def splitAt? : List Char → Nat → Option (List Char × List Char)
  | cs, 0 => some ([], cs)
  | [], _ + 1 => none
  | c :: cs, n + 1 =>
    if c.utf8Size ≤ n + 1 then
      (splitAt? cs (n + 1 - c.utf8Size)).map fun (before, after) => (c :: before, after)
    else none

/-- The place to which the exponent moves the point, counted in bytes from the first digit. The
number of bytes before the point is taken for a number of 32 bits in any build; whether the sum is
one may be checked. -/
def point (l : Literal) (exponent : Int) : Except Abort Int :=
  settle (wrap32 (byteLength l.whole) + exponent)

/-- The digits with the point at a place. Zeros fill the places between the point and the digits,
and a point that would come to lie inside a digit aborts. -/
def placePoint (l : Literal) (point : Int) : Except Abort (List Char) :=
  let digits := l.whole ++ l.fraction
  -- the point is in front of the digits, behind them, or among them
  if point ≤ 0 then .ok ('0' :: '.' :: (List.replicate point.natAbs '0' ++ digits))
  else if byteLength digits ≤ point then
    .ok (digits ++ List.replicate (point.toNat - byteLength digits) '0')
  else
    match splitAt? digits point.toNat with
    | none => .error .misplacedPoint
    | some (before, after) => .ok (before ++ '.' :: after)

/-- The digits as positional text: the text with the point where the exponent moves it. -/
def positional (l : Literal) (exponent : Int) : Except Abort (List Char) := do
  l.placePoint (← l.point exponent)

end Literal

/-- The decimal that positional text stands for: a sign, digits, and a point with more digits, all
in ASCII. It has as many places as are written, and none are rounded away. -/
def Decimal.ofPositional? (cs : List Char) : Option Decimal :=
  let (negative, rest) := Literal.takeSign cs
  let (whole, rest) := rest.span Char.isDigit
  -- digits of other scripts end the span, and nothing but a point may stand there
  match rest with
  | [] => if whole ≠ [] then ofParts? negative (Literal.valueOf whole) 0 else none
  | '.' :: fraction =>
    if whole ≠ [] ∧ fraction ≠ [] ∧ fraction.all Char.isDigit then
      ofParts? negative (Literal.valueOf (whole ++ fraction)) fraction.length
    else none
  | _ => none

namespace Literal

variable [Arithmetic]

/-- The decimal a text stands for with a given exponent, by way of positional text. -/
def expand (l : Literal) (exponent : Int) : Except Abort (Option Decimal) :=
  (l.positional exponent).map fun cs =>
    Decimal.ofPositional? ((if l.negative then ['-'] else []) ++ cs)

/-- The decimal a text stands for, if its exponent is one that is looked at. -/
def toDecimal (l : Literal) : Except Abort (Option Decimal) := do
  match ← l.exponentValue? with
  | none => return none
  | some exponent => l.expand exponent

end Literal

/-- The decimal a text stands for, if it is decimal text at all. -/
def Decimal.read [Arithmetic] (cs : List Char) : Except Abort (Option Decimal) :=
  match Literal.parse? cs with
  | none => .ok none
  | some literal => literal.toDecimal

end ValidatorGen.Number

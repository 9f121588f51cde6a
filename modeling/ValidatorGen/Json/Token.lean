import ValidatorGen.Json.Cursor

/-!
# Scalars in JSON text

Words, strings and numbers, each read from the place where it starts.

A number without fraction and exponent is an integer if it fits 64 bits. Any other is read into a
64-bit binary number in two steps: as many digits as fit 64 bits make a whole number, which is
then multiplied or divided by a power of ten. The result need not be the binary number nearest to
the text: two roundings follow each other, and digits beyond the sixty-fourth bit count only as
zeros. Both steps are kept here as they are, since the operand of an attribute is whatever number
comes out of them.
-/

namespace ValidatorGen.Json

open ValidatorGen.Number (Binary Format)

/-! ## Words -/

/-- What is left of a word after its first letter; every letter has to be the expected one. -/
def readWord (letters : List Char) (c : Cursor) : Except Breach Cursor :=
  match letters with
  | [] => .ok c
  | letter :: letters =>
    match c.accept? letter with
    | some c => readWord letters c
    | none => .error (c.breach .endInValue .expectedWord)

/-! ## Strings -/

/-- The position after a number of bytes, if that many are left. -/
def Position.overBytes? (p : Position) : Nat → List Char → Option Position
  | 0, _ => some p
  | _ + 1, [] => none
  | n + 1, x :: rest =>
    if x.utf8Size ≤ n + 1 then (p.overChar x).overBytes? (n + 1 - x.utf8Size) rest
    else some ⟨p.line, p.column + (n + 1)⟩

/-- The value of a hexadecimal digit in either case. -/
def hexDigit? (c : Char) : Option Nat :=
  if c.isDigit then some (c.toNat - '0'.toNat)
  else if 'a' ≤ c ∧ c ≤ 'f' then some (c.toNat - 'a'.toNat + 10)
  else if 'A' ≤ c ∧ c ≤ 'F' then some (c.toNat - 'A'.toNat + 10)
  else none

/-- The number that hexadecimal digits stand for. -/
def hexValue? (digits : List Char) : Option Nat :=
  digits.foldlM (fun n c => (hexDigit? c).map (16 * n + ·)) 0

/-- The four digits of a code unit, which are looked at only when four bytes are left. The count is
of bytes, so a longer character among the four makes the escape invalid before it is looked at. -/
def readCodeUnit (c : Cursor) : Except Breach (Nat × Cursor) :=
  match c.position.overBytes? 4 c.rest with
  | none => .error ⟨.endInString, (c.past c.rest []).position⟩
  | some after =>
    -- Four characters, while `after` counts four bytes: they agree whenever the digits are digits.
    let digits := c.rest.take 4
    match hexValue? digits with
    | some unit => .ok (unit, c.past digits (c.rest.drop 4))
    | none => .error ⟨.invalidEscape, after⟩

/-- The second half of a pair of code units, written as an escape of its own. -/
def readLowUnit (c : Cursor) : Except Breach (Nat × Cursor) :=
  match c.accept? '\\' with
  | none => .error (c.breach .endInString .truncatedEscape)
  | some c =>
    match c.accept? 'u' with
    | none => .error (c.breach .endInString .truncatedEscape)
    | some c => readCodeUnit c

def isHighUnit (unit : Nat) : Bool :=
  0xD800 ≤ unit && unit ≤ 0xDBFF

def isLowUnit (unit : Nat) : Bool :=
  0xDC00 ≤ unit && unit ≤ 0xDFFF

/-- A character given by one code unit or by a pair of them. A second half alone is refused, and so
is a first half that no second one follows. -/
def readCodePoint (c : Cursor) : Except Breach (Char × Cursor) := do
  let (unit, c) ← readCodeUnit c
  if isLowUnit unit then throw ⟨.loneSurrogate, c.position⟩
  else if isHighUnit unit then
    let (low, c) ← readLowUnit c
    if isLowUnit low then
      return (Char.ofNat ((unit - 0xD800) * 0x400 + (low - 0xDC00) + 0x10000), c)
    else throw ⟨.loneSurrogate, c.position⟩
  else return (Char.ofNat unit, c)

/-- The characters that stand for themselves or for a control after a backslash. -/
def shortEscape? : Char → Option Char
  | '"' => some '"'
  | '\\' => some '\\'
  | '/' => some '/'
  | 'b' => some '\x08'
  | 'f' => some '\x0c'
  | 'n' => some '\n'
  | 'r' => some '\r'
  | 't' => some '\t'
  | _ => none

/-- An escape, after its backslash. -/
def readEscape (c : Cursor) : Except Breach (Char × Cursor) :=
  match c.rest with
  | [] => .error ⟨.endInString, c.position⟩
  | x :: rest =>
    if x = 'u' then readCodePoint ⟨rest, c.position.overChar x⟩
    else match shortEscape? x with
      | some meant => .ok (meant, ⟨rest, c.position.overChar x⟩)
      | none => .error ⟨.invalidEscape, c.ahead⟩

/-- What is left of a string, up to its closing quote. Each round takes at least one character, so
a `bound` as long as the rest is enough. -/
def readCharacters (bound : List Char) (done : List Char) (c : Cursor) :
    Except Breach (String × Cursor) :=
  match bound, c.rest with
  | [], _ | _, [] => .error ⟨.endInString, c.position⟩
  | _ :: bound, x :: rest =>
    let next : Cursor := ⟨rest, c.position.overChar x⟩
    if x = '"' then .ok (String.ofList done.reverse, next)
    else if x = '\\' then do
      let (meant, c) ← readEscape next
      readCharacters bound (meant :: done) c
    else if x.toNat < 0x20 then .error ⟨.controlCharacter, c.ahead⟩
    else readCharacters bound (x :: done) next

/-- A string, after its opening quote. -/
def readString (c : Cursor) : Except Breach (String × Cursor) :=
  readCharacters c.rest [] c

/-! ## Numbers -/

/-- Digits, and the cursor after them. -/
def takeDigits (c : Cursor) : List Nat × Cursor :=
  let (digits, c) := c.takeWhile Char.isDigit
  (digits.map fun d => d.toNat - '0'.toNat, c)

/-- Appends digits to a number as long as it fits 64 bits; gives the number and the digits that
were left out. -/
def accumulate (n : Nat) : List Nat → Nat × List Nat
  | [] => (n, [])
  | d :: digits =>
    if 10 * n + d < 0x10000000000000000 then accumulate (10 * n + d) digits else (n, d :: digits)

/-- `n * 10 ^ exponent` in binary arithmetic, sign apart; none if it overflows. Large exponents are
taken in steps of the greatest power of ten of the format. -/
def scale? (f : Binary .double) (exponent : Int) : Option (Binary .double) :=
  if _h : exponent < -308 then
    if f.isZero then some f else scale? (f.div (.tenPow .double 308)) (exponent + 308)
  else if exponent < 0 then some (f.div (.tenPow .double exponent.natAbs))
  else if exponent ≤ 308 then
    let scaled := f.mul (.tenPow .double exponent.natAbs)
    if scaled.isFinite then some scaled else none
  else if f.isZero then some f
  else none
termination_by exponent.natAbs
decreasing_by omega

/-- A binary number as a JSON number; the sign is given apart. -/
def floatNumber? (negative : Bool) : Binary .double → Option Number
  | .finite _ rank => some (.float negative rank)
  | _ => none

/-- Zero as a binary number. -/
def zeroNumber (negative : Bool) : Number :=
  .float negative ⟨0, Format.double_ranks_pos⟩

/-- The number `± significand * 10 ^ exponent`, read up to the cursor. -/
def scaledNumber (negative : Bool) (significand : Nat) (exponent : Int) (c : Cursor) :
    Except Breach (Number × Cursor) :=
  match (scale? (.ofInt .double significand) exponent).bind (floatNumber? negative) with
  | some n => .ok (n, c)
  | none => .error ⟨.numberOutOfRange, c.position⟩

/-- The digits of an exponent before the first at which it no longer fits 31 bits, that digit
included; none if all fit. The position of a fault about the exponent is after these digits. -/
def exponentOverflow? (n : Nat) : List Nat → Option (List Nat)
  | [] => none
  | d :: digits =>
    if 10 * n + d < 0x80000000 then (exponentOverflow? (10 * n + d) digits).map (d :: ·)
    else some [d]

/-- What follows the mark of an exponent. An exponent that overflows makes the number zero, unless
it is positive and the significand is not zero. -/
def readExponent (negative : Bool) (significand : Nat) (start : Int) (c : Cursor) :
    Except Breach (Number × Cursor) :=
  let (down, c) := match c.accept? '+', c.accept? '-' with
    | some c, _ => (false, c)
    | none, some c => (true, c)
    | none, none => (false, c)
  let (digits, after) := takeDigits c
  if digits.isEmpty then .error (c.breach .endInValue .invalidNumber)
  else match exponentOverflow? 0 digits with
    | some read =>
      -- Zero stays zero under any exponent, and a huge negative one rounds everything to zero.
      if significand ≠ 0 ∧ !down then
        .error ⟨.numberOutOfRange, ⟨c.position.line, c.position.column + read.length⟩⟩
      else .ok (zeroNumber negative, after)
    | none =>
      let value : Nat := digits.foldl (10 * · + ·) 0
      scaledNumber negative significand (if down then start - value else start + value) after

/-- A number that is not an integer, from its exponent on if it has one. -/
def readScale (negative : Bool) (significand : Nat) (exponent : Int) (c : Cursor) :
    Except Breach (Number × Cursor) :=
  match c.accept? 'e', c.accept? 'E' with
  | some c, _ | none, some c => readExponent negative significand exponent c
  | none, none => scaledNumber negative significand exponent c

/-- An integer, if it fits 64 bits. A negative zero is no integer. -/
def wholeNumber (negative : Bool) (significand : Nat) (c : Cursor) :
    Except Breach (Number × Cursor) :=
  if h : negative = false ∧ significand < 0x10000000000000000 then
    .ok (.integer significand ⟨by omega, by omega⟩, c)
  else if h : negative = true ∧ significand ≠ 0 ∧ significand ≤ 0x8000000000000000 then
    .ok (.integer (-significand) ⟨by omega, by omega⟩, c)
  else scaledNumber negative significand 0 c

/-- A number, after its sign. -/
def readUnsigned (negative : Bool) (c : Cursor) : Except Breach (Number × Cursor) :=
  let (digits, after) := takeDigits c
  match digits with
  | [] => .error (c.breach .endInValue .invalidNumber)
  | 0 :: _ :: _ =>
    .error ⟨.invalidNumber, ⟨c.position.line, c.position.column + 2⟩⟩
  | digits =>
    -- Every digit that is left out in front of the point raises the exponent by one.
    let (significand, dropped) := accumulate 0 digits
    match after.accept? '.' with
    | some point =>
      let (places, afterPlaces) := takeDigits point
      if places.isEmpty then .error (point.breach .endInValue .invalidNumber)
      else
        -- Every digit that is used after the point lowers it by one.
        let (significand, unused) := accumulate significand places
        readScale negative significand
          ((dropped.length : Int) - ((places.length - unused.length : Nat) : Int)) afterPlaces
    | none =>
      -- An integer only if nothing follows that makes it another kind of number, and no digit of
      -- it had to be left out.
      match after.accept? 'e', after.accept? 'E', dropped with
      | none, none, [] => wholeNumber negative significand after
      | _, _, _ => readScale negative significand dropped.length after

/-- A number. -/
def readNumber (c : Cursor) : Except Breach (Number × Cursor) :=
  match c.accept? '-' with
  | some c => readUnsigned true c
  | none => readUnsigned false c

end ValidatorGen.Json

import ValidatorGen.Number.Power

/-!
# Binary floating-point numbers

A binary format is a number of significand bits and a number of exponent bits. Its finite
magnitudes are counted from zero upwards: the magnitude of *rank* `r` is the `r`-th one, so the
order of ranks is the order of magnitudes. Every finite magnitude is a whole number of the
format's smallest unit, which makes comparison and rounding exact arithmetic on natural numbers.

The rank of a magnitude is its bit pattern without the sign, read as a number. That is why the
definitions below need no case for numbers with fewer significant bits, near zero: these are the
ranks of the first binade, and they are spaced like those of the second.

All operations round to nearest, a tie going to the even rank, as the arithmetic of common hardware
does. There is one sort of not-a-number only. Nothing here observes which bits a not-a-number has,
and all of them are written and compared in the same way.

* `Format.magnitude` — the magnitude of a rank, in units;
* `Format.nearestRank` — the rank nearest to a ratio, ties to the even rank;
* `Binary` — a number of the format: not-a-number, an infinity, or a sign with a rank;
* `Binary.compare?` — the numeric order, in which the two zeros are equal.
-/

namespace ValidatorGen.Number

/-- A binary interchange format, by the widths of its stored fields. -/
structure Format where
  significandBits : Nat
  exponentBits : Nat
  deriving Repr, DecidableEq

namespace Format

/-- The 32-bit format. -/
def single : Format := ⟨23, 8⟩

/-- The 64-bit format. -/
def double : Format := ⟨52, 11⟩

/-- The smallest positive magnitude, the unit, is `2 ^ (-f.fineness)`. -/
def fineness (f : Format) : Nat :=
  -- the least exponent of a number with all significant bits, and the bits behind its point
  twoTo (f.exponentBits - 1) - 2 + f.significandBits

/-- How many finite magnitudes there are, zero included. -/
def ranks (f : Format) : Nat :=
  -- the exponent of ones only is left to infinities and not-a-number
  (twoTo f.exponentBits - 1) * twoTo f.significandBits

theorem double_ranks_pos : 0 < double.ranks := by decide

/-- The magnitude of a rank, in units. The first binade is spaced by one unit and each later one
by twice the spacing of the one before. The rank one past the last finite one gives the magnitude
at which the format overflows. -/
def magnitude (f : Format) (rank : Nat) : Nat :=
  let binade := rank / twoTo f.significandBits
  let offset := rank % twoTo f.significandBits
  if binade = 0 then offset else (twoTo f.significandBits + offset) * twoTo (binade - 1)

/-- The quotient rounded to the nearest whole number, a half going to the even neighbour. -/
def roundHalfEven (num den : Nat) : Nat :=
  let floor := num / den
  let twice := 2 * (num % den)
  if twice < den then floor
  else if twice = den then floor + floor % 2
  else floor + 1

/-- The rank whose magnitude is nearest to `num / den`, a tie going to the even rank. Ranks past
the finite ones stand for overflow. The significand is rounded to a whole number; if it is rounded
up to a power of two, the sum carries into the next binade, and the rank is still the right one. -/
def nearestRank (f : Format) (num den : Nat) : Nat :=
  let scaled := num * twoTo f.fineness
  -- how far the significand has to be shifted to keep as many bits as the format has
  let shift := Nat.log2 (scaled / den) - f.significandBits
  shift * twoTo f.significandBits + roundHalfEven scaled (den * twoTo shift)

end Format

/-- A number of a binary format. The sign of a zero is kept; what kind of not-a-number a bit
pattern stands for is not. -/
inductive Binary (f : Format) where
  | nan
  | infinite (negative : Bool)
  | finite (negative : Bool) (rank : Fin f.ranks)
  deriving Repr, DecidableEq

namespace Binary

variable {f : Format}

/-- The number of the format nearest to `± num / den`; infinite when that overflows. -/
def ofRatio (f : Format) (negative : Bool) (num den : Nat) : Binary f :=
  let rank := f.nearestRank num den
  if h : rank < f.ranks then .finite negative ⟨rank, h⟩ else .infinite negative

/-- The number nearest to an integer; zero is positive. -/
def ofInt (f : Format) (n : Int) : Binary f :=
  ofRatio f (n < 0) n.natAbs 1

/-- The number nearest to a power of ten. -/
def tenPow (f : Format) (n : Nat) : Binary f :=
  ofRatio f false (tenTo n) 1

def isFinite : Binary f → Bool
  | .finite .. => true
  | _ => false

def isNaN : Binary f → Bool
  | .nan => true
  | _ => false

/-- Zero of either sign. -/
def isZero : Binary f → Bool
  | .finite _ rank => rank.val = 0
  | _ => false

def neg : Binary f → Binary f
  | .nan => .nan
  | .infinite negative => .infinite !negative
  | .finite negative rank => .finite (!negative) rank

/-- The magnitude of a finite number, in units; zero for the others. -/
def magnitude : Binary f → Nat
  | .finite _ rank => f.magnitude rank
  | _ => 0

/-- The signed magnitude in units, an infinity standing where the format overflows. None for
not-a-number. Both zeros have zero units, which makes them equal in the numeric order. -/
def units? : Binary f → Option Int
  | .nan => none
  | .infinite negative => some (signed negative (f.magnitude f.ranks))
  | .finite negative rank => some (signed negative (f.magnitude rank))
where
  signed (negative : Bool) (n : Nat) : Int := if negative then -(n : Int) else n

/-- The numeric order. None when either side is not a number; the two zeros are equal. -/
def compare? (a b : Binary f) : Option Ordering :=
  match a.units?, b.units? with
  | some x, some y => some (compare x y)
  | _, _ => none

/-- A total order that extends the numeric one: not-a-number is equal to itself and above all
else. -/
def totalCompare (a b : Binary f) : Ordering :=
  match a.units?, b.units? with
  | some x, some y => compare x y
  | some _, none => .lt
  | none, some _ => .gt
  | none, none => .eq

/-- The same number in another format, rounded to nearest where it does not fit exactly. -/
def convert (g : Format) : Binary f → Binary g
  | .nan => .nan
  | .infinite negative => .infinite negative
  | .finite negative rank => ofRatio g negative (f.magnitude rank) (twoTo f.fineness)

/-- The rounded product. That of an infinity and zero is not a number. -/
def mul : Binary f → Binary f → Binary f
  | .finite s r, .finite t q =>
    -- both factors are counted in units, so the product is in squares of units
    ofRatio f (s != t) (f.magnitude r * f.magnitude q) (twoTo (2 * f.fineness))
  | .infinite s, .infinite t => .infinite (s != t)
  | .infinite s, .finite t q | .finite t q, .infinite s =>
    if f.magnitude q = 0 then .nan else .infinite (s != t)
  | .nan, _ | _, .nan => .nan

/-- The rounded quotient of a finite number by a finite one other than zero; not-a-number for
other operands. -/
def div : Binary f → Binary f → Binary f
  | .finite s r, .finite t q =>
    if f.magnitude q = 0 then .nan else ofRatio f (s != t) (f.magnitude r) (f.magnitude q)
  | _, _ => .nan

/-- The rounded sum. An exact zero is negative only when both operands are; the sum of two opposite
infinities is not a number. -/
def add : Binary f → Binary f → Binary f
  | .finite s r, .finite t q =>
    let sum := units?.signed s (f.magnitude r) + units?.signed t (f.magnitude q)
    ofRatio f (if sum = 0 then s && t else sum < 0) sum.natAbs (twoTo f.fineness)
  | .infinite s, .infinite t => if s = t then .infinite s else .nan
  | .infinite s, .finite .. | .finite .., .infinite s => .infinite s
  | .nan, _ | _, .nan => .nan

/-- The nearest whole number, a half going away from zero. This is not the rounding of the other
operations, in which a half goes to the even side. -/
def round : Binary f → Binary f
  | .finite negative rank =>
    -- half a one is added before the fraction is cut off
    ofRatio f negative ((2 * f.magnitude rank + twoTo f.fineness) / (2 * twoTo f.fineness)) 1
  | x => x

end Binary

end ValidatorGen.Number

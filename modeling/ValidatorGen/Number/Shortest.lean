import ValidatorGen.Number.Binary

/-!
# Shortest decimal text of a binary number

A finite binary number stands for every real that rounds to it: the interval between the midpoints
to its two neighbours, ends included when its rank is even. `shortest` gives the decimal number in
that interval with the fewest digits, and among those the nearest.

The interval is scaled by a power of ten that makes its ends and its middle whole numbers, so that
the search compares natural numbers only. It is a search by length: first for a number of one digit
in the interval, then of two, and so on. It ends after seventeen digits at the latest, for there is
always a decimal number of that length between two neighbours of the 64-bit format.

Where two numbers of the least length are equally near to the middle, writers differ in which one
they take. `Tie` tells them apart.
-/

namespace ValidatorGen.Number

/-- The decimal number `coefficient * 10 ^ exponent`. -/
structure Scientific where
  coefficient : Nat
  exponent : Int
  deriving Repr, DecidableEq

namespace Scientific

/-- The digits of the coefficient, most significant first. -/
def digits (d : Scientific) : List Char :=
  Nat.toDigits 10 d.coefficient

/-- The power of ten of the first digit. -/
def leading (d : Scientific) : Int :=
  d.digits.length - 1 + d.exponent

/-- The same number without zeros at the end of its coefficient; `fuel` bounds how many go. -/
def stripZeros : Nat → Scientific → Scientific
  | 0, d => d
  | fuel + 1, d =>
    if d.coefficient ≠ 0 ∧ d.coefficient % 10 = 0 then
      stripZeros fuel ⟨d.coefficient / 10, d.exponent + 1⟩
    else d

end Scientific

/-- Which of two equally near decimal numbers is taken. -/
inductive Tie where
  | up
  | even
  deriving Repr, DecidableEq

/-- The reals that round to one binary number, scaled to whole numbers. -/
structure RoundingInterval where
  low : Nat
  middle : Nat
  high : Nat
  closed : Bool

namespace RoundingInterval

/-- The interval of a rank, in units of `10 ^ (-(f.fineness + 1))`. -/
def ofRank (f : Format) (rank : Nat) : RoundingInterval :=
  -- with the power of two that is in the unit this makes a power of ten; the factor that is left
  -- over makes the midpoints whole
  let scale := Nat.pow 5 (f.fineness + 1)
  let value := f.magnitude rank
  { low := (f.magnitude (rank - 1) + value) * scale
    middle := 2 * value * scale
    high := (value + f.magnitude (rank + 1)) * scale
    closed := rank % 2 = 0 }

def contains (i : RoundingInterval) (n : Nat) : Bool :=
  if i.closed then i.low ≤ n && n ≤ i.high else i.low < n && n < i.high

/-- The multiple of `step` inside the interval that is nearest to its middle, divided by `step`.
Only the two multiples around the middle need be looked at. -/
def nearestMultiple? (tie : Tie) (i : RoundingInterval) (step : Nat) : Option Nat :=
  let below := i.middle / step
  match i.contains (below * step), i.contains ((below + 1) * step) with
  | false, false => none
  | true, false => some below
  | false, true => some (below + 1)
  | true, true =>
    -- both are inside, so the nearer one counts
    let twice := 2 * (i.middle % step)
    if twice < step then some below
    else if twice > step then some (below + 1)
    else match tie with
      | .up => some (below + 1)
      | .even => some (below + below % 2)

end RoundingInterval

/-- The decimal number with the fewest digits that rounds to the magnitude of a rank above zero,
and the nearest of those. Seventeen digits are enough for the 64-bit format. -/
def shortest (f : Format) (tie : Tie) (rank : Nat) : Scientific :=
  let interval := RoundingInterval.ofRank f rank
  let length := (Nat.toDigits 10 interval.middle).length
  -- numbers of `n` digits near the middle are the multiples of this power of ten; one of them may
  -- have been carried into the next power and ends in zeros then
  let attempt (n : Nat) : Option Scientific :=
    (interval.nearestMultiple? tie (tenTo (length - n))).map fun c =>
      Scientific.stripZeros 2 ⟨c, (length - n : Nat) - (f.fineness + 1 : Nat)⟩
  ((List.range' 1 17).findSome? attempt).getD ⟨interval.middle, -(f.fineness + 1 : Nat)⟩

end ValidatorGen.Number

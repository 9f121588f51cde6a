/-!
# Powers

Powers of the two bases that numbers are written in. They have names of their own so that `decide`
and `simp` do not multiply them out wherever they occur: the largest ones have hundreds of digits.
-/

namespace ValidatorGen.Number

/-- `2 ^ n`. -/
def twoTo (n : Nat) : Nat := Nat.pow 2 n

/-- `10 ^ n`. -/
def tenTo (n : Nat) : Nat := Nat.pow 10 n

theorem twoTo_pos (n : Nat) : 0 < twoTo n := Nat.pow_pos (by decide)

theorem tenTo_pos (n : Nat) : 0 < tenTo n := Nat.pow_pos (by decide)

end ValidatorGen.Number

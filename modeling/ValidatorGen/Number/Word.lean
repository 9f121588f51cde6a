/-!
# Numbers of 32 bits

Nearly all whole numbers of this library have no bounds. One computation does: the exponent of a
decimal text, and the place to which it moves the point, are numbers of 32 bits with a sign. Texts
of ordinary length never get near these bounds, but an exponent can be as small as `-2147483648`,
and the digits of a text can be more than `2147483647`.

What happens to a result that does not fit is a matter of how the program is built. A build that
*checks* its arithmetic gives the run up; any other build drops the upper bits and goes on with what
is left. `Arithmetic` stands for the build, so that what is proved with an instance of it in the
context holds of both.

* `Fits32` — the numbers that have 32 bits;
* `wrap32` — a number without its upper bits, for conversions, which no build checks;
* `settle` — the result of an operation, in a build of either sort.
-/

namespace ValidatorGen.Number

/-- Why a run had to be given up. There is one reason only: the point of a decimal text cannot be
placed. Its place is inside a digit that takes more than one byte; or a number on the way to it does
not fit 32 bits, in a build that checks this. -/
inductive Abort where
  | misplacedPoint
  deriving Repr, DecidableEq

/-- How a build of the program treats results that do not fit 32 bits. -/
class Arithmetic where
  /-- Whether such a result gives the run up. If not, its upper bits are dropped. -/
  isChecked : Bool

/-- Builds that check their arithmetic. This is the sort that is run here. -/
instance Arithmetic.checked : Arithmetic where
  isChecked := true

/-- Builds that do not check their arithmetic. -/
@[reducible]
def Arithmetic.wrapping : Arithmetic where
  isChecked := false

/-- Whether a whole number fits 32 bits with a sign. -/
def Fits32 (n : Int) : Prop :=
  -0x80000000 ≤ n ∧ n < 0x80000000

instance (n : Int) : Decidable (Fits32 n) :=
  inferInstanceAs (Decidable (_ ∧ _))

/-- What is left of a whole number when all but its last 32 bits are dropped. -/
def wrap32 (n : Int) : Int :=
  (n + 0x80000000) % 0x100000000 - 0x80000000

theorem fits32_wrap32 (n : Int) : Fits32 (wrap32 n) := by
  unfold Fits32 wrap32
  omega

/-- Dropping upper bits takes away a multiple of `2 ^ 32`. -/
theorem exists_wrap32_eq (n : Int) : ∃ k : Int, wrap32 n = n - k * 0x100000000 := by
  refine ⟨(n + 0x80000000) / 0x100000000, ?_⟩
  unfold wrap32
  omega

/-- Two numbers of 32 bits that differ from one number by multiples of `2 ^ 32` are the same. -/
theorem eq_of_congruent {a b n : Int} (ha : Fits32 a) (hb : Fits32 b)
    (hCongruentA : ∃ k : Int, a = n - k * 0x100000000)
    (hCongruentB : ∃ k : Int, b = n - k * 0x100000000) : a = b := by
  obtain ⟨j, rfl⟩ := hCongruentA
  obtain ⟨k, rfl⟩ := hCongruentB
  unfold Fits32 at ha hb
  omega

/-- The result of an operation on numbers of 32 bits, given as the number that it should be. -/
def settle [Arithmetic] (n : Int) : Except Abort Int :=
  if Fits32 n then .ok n
  else if Arithmetic.isChecked then .error .misplacedPoint
  else .ok (wrap32 n)

theorem settle_of_fits32 [Arithmetic] {n : Int} (h : Fits32 n) : settle n = .ok n :=
  if_pos h

theorem settle_eq_error_iff [Arithmetic] {n : Int} {abort : Abort} :
    settle n = .error abort ↔ ¬ Fits32 n ∧ Arithmetic.isChecked = true := by
  unfold settle
  cases abort
  by_cases h : Fits32 n
  · simp [h]
  · cases hChecked : Arithmetic.isChecked <;> simp [h]

/-- Whatever the build, a result that there is fits 32 bits and has not lost more than upper
bits. -/
theorem fits32_of_settle [Arithmetic] {n m : Int} (h : settle n = .ok m) :
    Fits32 m ∧ ∃ k : Int, m = n - k * 0x100000000 := by
  unfold settle at h
  split at h
  · next hFits =>
    obtain rfl := Except.ok.inj h
    exact ⟨hFits, 0, by omega⟩
  · split at h
    · cases h
    · obtain rfl := Except.ok.inj h
      exact ⟨fits32_wrap32 n, exists_wrap32_eq n⟩

end ValidatorGen.Number

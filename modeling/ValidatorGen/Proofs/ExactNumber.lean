import ValidatorGen.Constraint
import Mathlib.Algebra.Order.Field.Basic
import Mathlib.Data.Rat.Cast.Order
import Mathlib.Order.Compare
import Mathlib.Tactic.FieldSimp
import Mathlib.Tactic.Positivity
import Mathlib.Tactic.Ring

/-!
# Exact numbers

Integers of any width and decimals stand for one rational number each. The library never forms that
number: it compares whole numbers that are scaled by powers of ten. This module gives the number and
shows that the scaled comparison is the order of the numbers.

Nine of the eleven kinds of operands are exact. The other two are binary numbers, whose order is the
subject of another module, because not all of their values are ordered.

Main results:

* `Operand.compareScaled_eq_compare` — comparing scaled whole numbers is comparing their quotients;
* `Operand.compare?_of_rational` — the numeric order of exact operands is that of their numbers.
-/

namespace ValidatorGen

open Number (Decimal tenTo)

theorem Number.tenTo_eq_pow (n : Nat) : tenTo n = 10 ^ n := rfl

namespace Operand

/-- The operands that stand for one rational number: integers of any width, and decimals. -/
def IsExact (o : Operand) : Prop :=
  o.kind ≠ .single ∧ o.kind ≠ .double

instance (o : Operand) : Decidable o.IsExact :=
  inferInstanceAs (Decidable (_ ∧ _))

/-- The number an integer or a decimal stands for. It is used in statements only; the code works on
whole numbers throughout. -/
def rational? : Operand → Option ℚ
  | .integer _ value _ => some value
  | .decimal d => some (d.signedMantissa / 10 ^ d.scale)
  | .single _ | .double _ => none

theorem exists_rational?_of_isExact {o : Operand} (h : o.IsExact) : ∃ x, o.rational? = some x := by
  cases o with
  | integer _ value _ => exact ⟨value, rfl⟩
  | decimal d => exact ⟨d.signedMantissa / 10 ^ d.scale, rfl⟩
  | single _ => exact absurd rfl h.1
  | double _ => exact absurd rfl h.2

/-! ## Order -/

/-- The scaled whole number of an exact operand is its number. -/
theorem exactValue?_of_rational? {o : Operand} {x : ℚ} (h : o.rational? = some x) :
    ∃ v, o.exactValue? = some v ∧ x = v.1 / 10 ^ v.2 := by
  cases o with
  | integer _ value _ =>
    refine ⟨(value, 0), rfl, ?_⟩
    rw [← Option.some.inj h]
    simp
  | decimal d => exact ⟨(d.signedMantissa, d.scale), rfl, (Option.some.inj h).symm⟩
  | single _ | double _ => simp [rational?] at h

/-- Cross-multiplying by powers of ten compares the quotients. Multiplying both quotients by both
powers gives the two sides that the code compares. -/
theorem compareScaled_eq_compare (v w : Int × Nat) :
    compareScaled v w = compare ((v.1 : ℚ) / 10 ^ v.2) (w.1 / 10 ^ w.2) := by
  have hPos : (0 : ℚ) < 10 ^ v.2 * 10 ^ w.2 := by positivity
  have hLeft : (v.1 : ℚ) / 10 ^ v.2 * (10 ^ v.2 * 10 ^ w.2) = ((v.1 * tenTo w.2 : ℤ) : ℚ) := by
    rw [Number.tenTo_eq_pow]
    push_cast
    field_simp
  have hRight : (w.1 : ℚ) / 10 ^ w.2 * (10 ^ v.2 * 10 ^ w.2) = ((w.1 * tenTo v.2 : ℤ) : ℚ) := by
    rw [Number.tenTo_eq_pow]
    push_cast
    field_simp
  rw [compareScaled, ← cmp_eq_compare, ← cmp_eq_compare, ← cmp_mul_pos_right hPos, hLeft, hRight]
  exact (Int.cast_strictMono.cmp_map_eq _ _).symm

/-- **The numeric order of exact operands is the order of their numbers.** -/
theorem compare?_of_rational {a b : Operand} {x y : ℚ} (ha : a.rational? = some x)
    (hb : b.rational? = some y) : a.compare? b = some (compare x y) := by
  obtain ⟨v, hv, rfl⟩ := exactValue?_of_rational? ha
  obtain ⟨w, hw, rfl⟩ := exactValue?_of_rational? hb
  rw [compare?, hv, hw]
  exact congrArg some (compareScaled_eq_compare v w)

end Operand

end ValidatorGen

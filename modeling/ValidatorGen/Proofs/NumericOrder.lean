import ValidatorGen.Proofs.KeyOrder
import ValidatorGen.Proofs.Rounding
import Mathlib.Tactic.SplitIfs
import Mathlib.Tactic.Tauto

/-!
# The numeric order across kinds

Operands are compared in one of two ways: exactly, if both are integers or decimals, and otherwise
as 64-bit binary numbers. The second way needs a binary number for each operand. That of a decimal
is computed in several rounded steps, none of which may overflow; that of a 32-bit number has to
stand where the 32-bit number stood.

The steps of the conversion from decimals are followed with bounds on magnitudes, by powers of two.
`Binary.AtMost` says that a number is finite and how great it is at most, and each operation has one
lemma that says what becomes of the bound. The bounds are generous: a decimal is below 2 ^ 96, and
the format overflows beyond 2 ^ 1000.

That numbers of 32 bits keep their order as numbers of 64 bits cannot be seen from their bits, since
the two formats are laid out differently. It is seen from the units they count in: those of the
wider format are a fixed fraction of those of the narrower one, so conversion multiplies the number
of units, and infinities stay outermost.

The laws follow by a case distinction that is made once, in `Operand.compare?_cases`: either both
operands are exact and the comparison is one of rational numbers, or it is one of binary numbers.

Main results:

* `Number.Decimal.isFinite_toDouble` — the binary number of a decimal is finite;
* `Number.Binary.compare?_convert` — 32-bit numbers are in the order of the 64-bit numbers they are
  converted to;
* `Operand.compare?_laws` — the laws of the numeric order.
-/

namespace ValidatorGen

namespace Number

open Format (magnitude_strictMono)

namespace Binary

/-! ## Numbers of bounded magnitude -/

/-- Whether a number is finite and its magnitude is at most `2 ^ k`. Magnitudes are counted in the
smallest units of the format, of which one is made up by `2 ^ fineness`. -/
def AtMost (k : Nat) (b : Binary .double) : Prop :=
  ∃ negative rank, b = .finite negative rank ∧
    Format.double.magnitude rank ≤ twoTo (k + Format.double.fineness)

/-- A ratio that is bounded far below the overflow is rounded to a number with the same bound, since
a power of two is itself a number of the format and rounding does not pass it. -/
theorem atMost_ofRatio {num den k : Nat} (negative : Bool) (hFar : k ≤ 1000)
    (h : num ≤ den * twoTo k) : (ofRatio .double negative num den).AtMost k := by
  have hUnits : num * twoTo Format.double.fineness ≤
      den * twoTo (k + Format.double.fineness) := by
    rw [twoTo_add, ← Nat.mul_assoc]
    exact Nat.mul_le_mul_right _ h
  have hMagnitude := Format.magnitude_nearestRank_le (f := .double)
    (Nat.le_trans (by decide : Format.double.significandBits ≤ Format.double.fineness)
      (Nat.le_add_left _ k)) hUnits
  -- the bound is below the magnitude at which the format overflows
  have hTop : twoTo (1000 + Format.double.fineness) <
      Format.double.magnitude Format.double.ranks := by decide +kernel
  have hBelow := twoTo_le_twoTo (Nat.add_le_add_right hFar Format.double.fineness)
  have hRank : Format.double.nearestRank num den < Format.double.ranks :=
    (magnitude_strictMono .double).lt_iff_lt.1
      (Nat.lt_of_le_of_lt (Nat.le_trans hMagnitude hBelow) hTop)
  exact ⟨negative, ⟨_, hRank⟩, dif_pos hRank, hMagnitude⟩

theorem atMost_ofInt {n : Int} {k : Nat} (hFar : k ≤ 1000) (h : n.natAbs ≤ twoTo k) :
    (ofInt .double n).AtMost k :=
  atMost_ofRatio _ hFar (by omega)

theorem natAbs_signed (negative : Bool) (n : Nat) : (units?.signed negative n).natAbs = n := by
  cases negative
  · exact Int.natAbs_natCast n
  · exact (Int.natAbs_neg _).trans (Int.natAbs_natCast n)

variable {a b : Binary .double} {j k : Nat}

theorem AtMost.add (ha : a.AtMost k) (hb : b.AtMost k) (hFar : k + 1 ≤ 1000) :
    (a.add b).AtMost (k + 1) := by
  obtain ⟨s, r, rfl, hr⟩ := ha
  obtain ⟨t, q, rfl, hq⟩ := hb
  rw [Binary.add]
  refine atMost_ofRatio _ hFar ?_
  -- the sum of two numbers below a bound is below twice the bound
  have hSum := Int.natAbs_add_le (units?.signed s (Format.double.magnitude r))
    (units?.signed t (Format.double.magnitude q))
  rw [natAbs_signed, natAbs_signed] at hSum
  have hTwice : twoTo Format.double.fineness * twoTo (k + 1) =
      2 * twoTo (k + Format.double.fineness) := by
    rw [← two_mul_twoTo, twoTo_add, Nat.mul_left_comm, Nat.mul_comm (twoTo k)]
  rw [hTwice]
  omega

theorem AtMost.mul (ha : a.AtMost j) (hb : b.AtMost k) (hFar : j + k ≤ 1000) :
    (a.mul b).AtMost (j + k) := by
  obtain ⟨s, r, rfl, hr⟩ := ha
  obtain ⟨t, q, rfl, hq⟩ := hb
  rw [Binary.mul]
  refine atMost_ofRatio _ hFar (Nat.le_trans (Nat.mul_le_mul hr hq) (Nat.le_of_eq ?_))
  rw [← twoTo_add, ← twoTo_add]
  exact congrArg twoTo (by omega)

/-- Rounding to a whole number adds less than one, for which twice the bound leaves room. -/
theorem AtMost.round (ha : a.AtMost k) (hFar : k + 1 ≤ 1000) : a.round.AtMost (k + 1) := by
  obtain ⟨s, r, rfl, hr⟩ := ha
  rw [Binary.round]
  refine atMost_ofRatio _ hFar ?_
  rw [Nat.one_mul]
  have hUnit := twoTo_pos Format.double.fineness
  rw [twoTo_add] at hr
  -- at most one half is added before the fraction is cut off
  refine Nat.div_le_of_le_mul ?_
  have hPower : 2 * twoTo Format.double.fineness * twoTo (k + 1) =
      2 * (2 * (twoTo k * twoTo Format.double.fineness)) := by
    rw [← two_mul_twoTo, Nat.mul_assoc, Nat.mul_left_comm (twoTo _), Nat.mul_comm (twoTo k)]
  have hOne : twoTo Format.double.fineness ≤ twoTo k * twoTo Format.double.fineness :=
    Nat.le_mul_of_pos_left _ (twoTo_pos k)
  rw [hPower]
  omega

/-- Whether a number is finite and its magnitude is at least one, which is what a divisor needs for
the bound to be kept. -/
def AtLeastOne (b : Binary .double) : Prop :=
  ∃ negative rank, b = .finite negative rank ∧
    twoTo Format.double.fineness ≤ Format.double.magnitude rank

theorem AtMost.div (ha : a.AtMost k) (hb : b.AtLeastOne) (hFar : k ≤ 1000) :
    (a.div b).AtMost k := by
  obtain ⟨s, r, rfl, hr⟩ := ha
  obtain ⟨t, q, rfl, hq⟩ := hb
  have hNonzero : Format.double.magnitude q ≠ 0 :=
    Nat.ne_of_gt (Nat.lt_of_lt_of_le (twoTo_pos _) hq)
  rw [div, if_neg hNonzero]
  refine atMost_ofRatio _ hFar (Nat.le_trans hr ?_)
  rw [twoTo_add, Nat.mul_comm]
  exact Nat.mul_le_mul_right _ hq

/-- The powers of ten that a decimal is scaled by. -/
theorem atLeastOne_tenPow {scale : Nat} (h : scale ≤ 28) :
    (tenPow .double scale).AtMost 94 ∧ (tenPow .double scale).AtLeastOne := by
  have hLe : tenTo scale ≤ twoTo 94 :=
    Nat.le_trans (Nat.pow_le_pow_right (by decide) h) (by decide : tenTo 28 ≤ twoTo 94)
  have hMost : (tenPow .double scale).AtMost 94 := atMost_ofRatio _ (by decide) (by omega)
  refine ⟨hMost, ?_⟩
  obtain ⟨negative, rank, hFinite, -⟩ := hMost
  refine ⟨negative, rank, hFinite, ?_⟩
  -- the rank is that of the rounded power of ten
  have hRank : Format.double.nearestRank (tenTo scale) 1 = rank := by
    rw [tenPow, ofRatio] at hFinite
    split at hFinite
    · exact congrArg Fin.val (Binary.finite.inj hFinite).2
    · cases hFinite
  rw [← hRank]
  refine Format.le_magnitude_nearestRank Nat.one_pos ?_
  exact Nat.mul_le_mul_right _ (tenTo_pos scale)

theorem AtMost.isFinite (h : a.AtMost k) : a.isFinite = true := by
  obtain ⟨negative, rank, rfl, -⟩ := h
  rfl

end Binary

open Binary

/-- **The binary number of a decimal is finite.** The conversion divides the mantissa into a whole
part and a fraction, adds them as binary numbers, and rounds the sum to as many places as the
decimal has. The bounds on the steps are put together in this order. -/
theorem Decimal.isFinite_toDouble (d : Decimal) : d.toDouble.isFinite = true := by
  have hMantissa : d.mantissa ≤ twoTo 96 := Nat.le_of_lt d.mantissa_lt
  have hWhole : ∀ n : Nat, n ≤ twoTo 96 → (ofInt .double (n : Int)).AtMost 96 := fun n hn =>
    atMost_ofInt (by decide) (by omega)
  obtain ⟨hStepMost, hStepOne⟩ := atLeastOne_tenPow d.scale_le
  -- each step loses at most a bit of what is left up to the overflow
  have hQuotient := Nat.div_le_self d.mantissa (tenTo d.scale)
  have hRemainder := Nat.mod_le d.mantissa (tenTo d.scale)
  have hFraction := (hWhole _ (by omega : d.mantissa % tenTo d.scale ≤ twoTo 96)).div hStepOne
    (by decide)
  have hSum := (hWhole _ (by omega : d.mantissa / tenTo d.scale ≤ twoTo 96)).add hFraction
    (by decide)
  have hRounded := ((hSum.mul hStepMost (by decide)).round (by decide)).div hStepOne (by decide)
  have hSign : ∀ b : Binary .double, b.isFinite = true →
      (if d.negative then b.neg else b).isFinite = true := by
    rintro (_ | _ | _) hb
    · cases hb
    · cases hb
    · split <;> rfl
  refine hSign _ ?_
  split
  · exact (hWhole _ hMantissa).isFinite
  · dsimp only
    split
    · exact (hWhole _ (by omega)).isFinite
    · exact hRounded.isFinite

/-! ## Wider numbers -/

namespace Binary

/-- How many units of the 64-bit format make up one of the 32-bit format. -/
def unitRatio : Nat :=
  twoTo (Format.double.fineness - Format.single.fineness)

/-- The magnitude at which a format overflows, for which its infinities stand. -/
def top (f : Format) : Nat :=
  f.magnitude f.ranks

theorem top_single_mul_lt : 0 < top .single ∧ top .single * unitRatio < top .double := by
  decide +kernel

/-- A finite 32-bit number is one of the 64-bit numbers: its significand is shorter, and the wider
format has its exponent. So conversion rounds nothing. -/
theorem exists_convert_finite (negative : Bool) (rank : Fin Format.single.ranks) :
    ∃ wide : Fin Format.double.ranks,
      (finite negative rank : Binary .single).convert .double = .finite negative wide ∧
        Format.double.magnitude wide = Format.single.magnitude rank * unitRatio := by
  obtain ⟨shift, significand, hNormal, hRank⟩ := Format.single.exists_normal rank
  have hShort : significand < 2 * twoTo Format.double.significandBits :=
    Nat.lt_trans hNormal.lt (by decide)
  -- The units of the formats differ by a power of two, by which the magnitude is scaled first.
  obtain ⟨wide, hWide⟩ := Format.double.exists_magnitude_eq hShort
    (shift + (Format.double.fineness - Format.single.fineness))
  rw [twoTo_add, ← Nat.mul_assoc, ← hNormal.magnitude_eq, ← hRank, ← unitRatio] at hWide
  -- The largest single number is far below the largest double one, so nothing becomes infinite.
  have hFinite : Format.single.magnitude rank ≤ top .single :=
    Nat.le_of_lt (magnitude_strictMono .single rank.isLt)
  have hBelow := Nat.lt_of_le_of_lt (Nat.mul_le_mul_right unitRatio hFinite) top_single_mul_lt.2
  have hLt : wide < Format.double.ranks := by
    rwa [← hWide, top, (magnitude_strictMono .double).lt_iff_lt] at hBelow
  have hFineness : twoTo Format.double.fineness = unitRatio * twoTo Format.single.fineness := by
    rw [unitRatio, ← twoTo_add]
    exact congrArg twoTo (by decide)
  have hNearest : Format.double.nearestRank (Format.single.magnitude rank)
      (twoTo Format.single.fineness) = wide :=
    Format.nearestRank_of_exact (twoTo_pos _) (by rw [hWide, hFineness, Nat.mul_assoc])
  refine ⟨⟨wide, hLt⟩, ?_, hWide⟩
  subst hNearest
  exact dif_pos hLt

theorem units?_infinite {f : Format} (negative : Bool) :
    (infinite negative : Binary f).units? = some (units?.signed negative (top f)) := rfl

theorem units?_finite {f : Format} (negative : Bool) (rank : Fin f.ranks) :
    (finite negative rank).units? = some (units?.signed negative (f.magnitude rank)) := rfl

theorem signed_mul (negative : Bool) (m n : Nat) :
    units?.signed negative (m * n) = units?.signed negative m * n := by
  cases negative
  · exact Int.natCast_mul m n
  · show -((m * n : Nat) : Int) = -(m : Int) * n
    rw [Int.natCast_mul, Int.neg_mul]

/-- What conversion does to units: more of them make up the same number, and an infinity stands
where the wider format overflows. -/
def widen (units : Int) : Int :=
  if units.natAbs < top .single then units * unitRatio
  else units?.signed (units < 0) (top .double)

/-- Conversion changes the units of a number by `widen`, and a number that is none has no units
before and after it. -/
theorem units?_convert (b : Binary .single) :
    (b.convert .double).units? = b.units?.map widen := by
  obtain ⟨hPos, -⟩ := top_single_mul_lt
  rcases b with _ | negative | ⟨negative, rank⟩
  · rfl
  -- an infinity is above all finite numbers in both formats and keeps its sign
  · have hSign : decide (units?.signed negative (top .single) < 0) = negative := by
      generalize top .single = limit at hPos
      cases negative
      · exact decide_eq_false (Int.not_lt.2 (Int.natCast_nonneg _))
      · exact decide_eq_true (Int.neg_neg_of_pos (Int.natCast_pos.2 hPos))
    rw [convert, units?_infinite, units?_infinite, Option.map_some, widen, natAbs_signed,
      if_neg (Nat.lt_irrefl _), hSign]
  · obtain ⟨wide, hWide, hMagnitude⟩ := exists_convert_finite negative rank
    have hFinite : Format.single.magnitude rank < top .single :=
      magnitude_strictMono .single rank.isLt
    rw [hWide, units?_finite, units?_finite, Option.map_some, widen, natAbs_signed,
      if_pos hFinite, hMagnitude, signed_mul]

/-- The units of a number lie between those of the two infinities. -/
theorem natAbs_units_le {f : Format} {b : Binary f} {n : Int} (h : b.units? = some n) :
    n.natAbs ≤ top f := by
  rcases b with _ | negative | ⟨negative, rank⟩
  · cases h
  · rw [units?_infinite] at h
    rw [← Option.some.inj h, natAbs_signed]
  · rw [units?_finite] at h
    rw [← Option.some.inj h, natAbs_signed]
    exact Nat.le_of_lt (magnitude_strictMono f rank.isLt)

/-- Widening keeps numbers of units apart, and in order, up to the infinities. Finite numbers are
multiplied, and the infinities of the wider format lie outside of all products. -/
theorem widen_lt_widen {x y : Int} (hx : x.natAbs ≤ top .single) (hy : y.natAbs ≤ top .single)
    (hLt : x < y) : widen x < widen y := by
  obtain ⟨-, hTop⟩ := top_single_mul_lt
  have hMul : x * unitRatio < y * unitRatio :=
    Int.mul_lt_mul_of_pos_right hLt (Int.natCast_pos.2 (twoTo_pos _))
  -- what is finite stays between the two infinities
  have hInside : ∀ n : Int, n.natAbs < top .single → (n * unitRatio).natAbs < top .double := by
    intro n hn
    rw [Int.natAbs_mul, Int.natAbs_natCast]
    exact Nat.lt_of_le_of_lt (Nat.mul_le_mul_right _ (Nat.le_of_lt hn)) hTop
  have hxInside := hInside x
  have hyInside := hInside y
  simp only [widen, units?.signed, decide_eq_true_eq]
  split_ifs <;> omega

/-- **Numbers are in the order of the wider numbers they are converted to.** The order is that of
units, and widening is strictly monotone on them. -/
theorem compare?_convert (a b : Binary .single) :
    (a.convert .double).compare? (b.convert .double) = a.compare? b := by
  rw [compare?, compare?, units?_convert, units?_convert]
  cases ha : a.units? with
  | none => rfl
  | some x =>
    cases hb : b.units? with
    | none => rfl
    | some y =>
      -- widening is strictly monotone only up to the units of an infinity, which no number exceeds
      have hMono : StrictMonoOn widen {n | n.natAbs ≤ top .single} :=
        fun _ hx _ hy => widen_lt_widen hx hy
      have hOrder := hMono.cmp_map_eq (natAbs_units_le ha) (natAbs_units_le hb)
      rw [cmp_eq_compare, cmp_eq_compare] at hOrder
      exact congrArg some hOrder

/-! ## Numbers that are none -/

variable {f : Format} {a b : Binary f}

theorem units?_eq_none_iff : a.units? = none ↔ a = .nan := by
  rcases a with _ | _ | _
  · exact iff_of_true rfl rfl
  · exact iff_of_false (by simp [units?]) (by simp)
  · exact iff_of_false (by simp [units?]) (by simp)

theorem compare?_eq_none_iff : a.compare? b = none ↔ a = .nan ∨ b = .nan := by
  rw [← units?_eq_none_iff, ← units?_eq_none_iff, compare?]
  cases a.units? <;> cases b.units? <;> simp

theorem compare?_eq_totalCompare (ha : a ≠ .nan) (hb : b ≠ .nan) :
    a.compare? b = some (a.totalCompare b) := by
  obtain ⟨x, hx⟩ := Option.ne_none_iff_exists'.1 (mt units?_eq_none_iff.1 ha)
  obtain ⟨y, hy⟩ := Option.ne_none_iff_exists'.1 (mt units?_eq_none_iff.1 hb)
  rw [compare?, totalCompare, hx, hy]

theorem compare?_swap (a b : Binary f) : b.compare? a = (a.compare? b).map Ordering.swap := by
  rw [compare?, compare?]
  cases a.units? with
  | none => cases b.units? <;> rfl
  | some x =>
    cases b.units? with
    | none => rfl
    | some y => exact congrArg some Std.OrientedCmp.eq_swap

theorem ofRatio_ne_nan (f : Format) (negative : Bool) (num den : Nat) :
    ofRatio f negative num den ≠ .nan := by
  rw [ofRatio]
  split <;> simp

theorem convert_eq_nan_iff {g : Format} : a.convert g = .nan ↔ a = .nan := by
  rcases a with _ | _ | ⟨negative, rank⟩
  · exact iff_of_true rfl rfl
  · exact iff_of_false (by simp [convert]) (by simp)
  · exact iff_of_false (ofRatio_ne_nan g _ _ _) (by simp)

end Binary

end Number

open Number (Binary Decimal)

/-! ## Operands -/

namespace Operand

/-- Whether an operand is a binary number that is none. Integers and decimals are numbers always. -/
def IsNaN : Operand → Prop
  | .single value => value = .nan
  | .double value => value = .nan
  | .integer .. | .decimal _ => False

theorem toDouble_eq_nan_iff {o : Operand} : o.toDouble = .nan ↔ o.IsNaN := by
  rcases o with ⟨_, value, _⟩ | value | value | d
  · exact iff_of_false (Binary.ofRatio_ne_nan _ _ _ _) id
  · exact Binary.convert_eq_nan_iff
  · exact Iff.rfl
  · refine iff_of_false (fun hNan => ?_) id
    have hFinite := d.isFinite_toDouble
    rw [show d.toDouble = .nan from hNan] at hFinite
    cases hFinite

theorem not_isNaN_of_exactValue? {o : Operand} {x : Int × Nat} (h : o.exactValue? = some x) :
    ¬ o.IsNaN := by
  rcases o with _ | _ | _ | _
  · exact id
  · cases h
  · cases h
  · exact id

/-- Operands that are not both exact are compared as binary numbers. In either case both directions
are given, so that the laws that relate them need no case distinction of their own. -/
theorem compare?_cases (a b : Operand) :
    (∃ x y, a.exactValue? = some x ∧ b.exactValue? = some y ∧
      a.compare? b = some (compareScaled x y) ∧ b.compare? a = some (compareScaled y x)) ∨
    (a.compare? b = a.toDouble.compare? b.toDouble ∧
      b.compare? a = b.toDouble.compare? a.toDouble) := by
  rw [compare?, compare?]
  cases ha : a.exactValue? with
  | none => exact .inr ⟨rfl, by cases b.exactValue? <;> rfl⟩
  | some x =>
    cases hb : b.exactValue? with
    | none => exact .inr ⟨rfl, rfl⟩
    | some y => exact .inl ⟨x, y, rfl, rfl, rfl, rfl⟩

theorem compare?_eq_none_iff (a b : Operand) : a.compare? b = none ↔ a.IsNaN ∨ b.IsNaN := by
  rcases compare?_cases a b with ⟨x, y, hx, hy, hExact, -⟩ | ⟨hBinary, -⟩
  · rw [hExact]
    exact iff_of_false (by simp)
      (not_or.2 ⟨not_isNaN_of_exactValue? hx, not_isNaN_of_exactValue? hy⟩)
  · rw [hBinary, Binary.compare?_eq_none_iff, toDouble_eq_nan_iff, toDouble_eq_nan_iff]

theorem compare?_swap (a b : Operand) : b.compare? a = (a.compare? b).map Ordering.swap := by
  rcases compare?_cases a b with ⟨x, y, -, -, hExact, hBack⟩ | ⟨hBinary, hBack⟩
  · rw [hExact, hBack, compareScaled, compareScaled]
    exact congrArg some Std.OrientedCmp.eq_swap
  · rw [hBinary, hBack, Binary.compare?_swap]

/-- Of operands of one kind the numeric order and the order of sorting agree. -/
theorem compare?_eq_totalCompare {a b : Operand} (hKind : a.kind = b.kind) (ha : ¬ a.IsNaN)
    (hb : ¬ b.IsNaN) : a.compare? b = some (a.totalCompare b) := by
  have hTotal : a.totalCompare b = a.compareValue b := by
    rw [totalCompare, hKind, Std.ReflOrd.compare_self]
    rfl
  rw [hTotal]
  -- Numbers of 32 bits are compared after widening, which keeps their order; the other kinds are
  -- compared as they are.
  rcases a with ⟨k, m, _⟩ | x | x | d
  · rcases b with ⟨l, n, _⟩ | _ | _ | _
    · show some (compare (m * Number.tenTo 0) (n * Number.tenTo 0)) = some (compare m n)
      rw [show (Number.tenTo 0 : Int) = 1 from rfl, Int.mul_one, Int.mul_one]
    all_goals simp [kind] at hKind
  · rcases b with _ | y | _ | _
    · simp [kind] at hKind
    · show (x.convert .double).compare? (y.convert .double) = _
      rw [Binary.compare?_convert]
      exact Binary.compare?_eq_totalCompare ha hb
    all_goals simp [kind] at hKind
  · rcases b with _ | _ | y | _
    · simp [kind] at hKind
    · simp [kind] at hKind
    · exact Binary.compare?_eq_totalCompare ha hb
    · simp [kind] at hKind
  · rcases b with _ | _ | _ | e
    · simp [kind] at hKind
    · simp [kind] at hKind
    · simp [kind] at hKind
    · rfl

end Operand

/-- What cannot be compared is not admitted. -/
theorem Constraint.admits_eq_false_of_isNaN {c : Constraint} {value : Operand}
    (h : (c.operands.1.IsNaN ∨ ∃ second ∈ c.operands.2, second.IsNaN) ∨ value.IsNaN) :
    c.admits value = false := by
  have hNone : ∀ o : Operand, o.IsNaN ∨ value.IsNaN → value.compare? o = none :=
    fun o ho => (Operand.compare?_eq_none_iff value o).2 ho.symm
  rcases c with b | r
  · have hThreshold : b.threshold.IsNaN ∨ value.IsNaN := by simpa [operands] using h
    show b.admits value = false
    rw [Bound.admits, hNone b.threshold hThreshold]
  -- one comparison without a result is enough for a range to admit nothing
  · have hEnds : (r.low.IsNaN ∨ value.IsNaN) ∨ (r.high.IsNaN ∨ value.IsNaN) := by
      simp only [operands, Option.mem_def, Option.some.injEq, exists_eq_left'] at h
      tauto
    show r.admits value = false
    rw [Range.admits]
    rcases hEnds with hLow | hHigh
    · simp [hNone r.low hLow]
    · simp [hNone r.high hHigh]

namespace Operand

/--
**The laws of the numeric order.**

1. Two operands cannot be compared exactly if one of them is not a number.
2. So a constraint with such an operand admits no value, and no constraint admits such a value.
3. Comparing the other way round gives the reverse.
4. Integers and decimals are in the order of the rational numbers they stand for,
5. which makes the order transitive on them.
6. Operands of one kind, unless they are no numbers, are in the order in which they are sorted.
-/
theorem compare?_laws :
    (∀ a b : Operand, a.compare? b = none ↔ a.IsNaN ∨ b.IsNaN) ∧
    (∀ (c : Constraint) (value : Operand),
      (c.operands.1.IsNaN ∨ ∃ second ∈ c.operands.2, second.IsNaN) ∨ value.IsNaN →
        c.admits value = false) ∧
    (∀ a b : Operand, b.compare? a = (a.compare? b).map Ordering.swap) ∧
    (∀ a b : Operand, a.IsExact → b.IsExact → ∃ x y : ℚ,
      a.rational? = some x ∧ b.rational? = some y ∧ a.compare? b = some (compare x y)) ∧
    (∀ a b c : Operand, a.IsExact → b.IsExact → c.IsExact → a.compare? b ≠ some .gt →
      b.compare? c ≠ some .gt → a.compare? c ≠ some .gt) ∧
    (∀ a b : Operand, a.kind = b.kind → ¬ a.IsNaN → ¬ b.IsNaN →
      a.compare? b = some (a.totalCompare b)) := by
  refine ⟨compare?_eq_none_iff, fun _ _ => Constraint.admits_eq_false_of_isNaN, compare?_swap,
    ?_, ?_, fun _ _ => compare?_eq_totalCompare⟩
  · intro a b ha hb
    obtain ⟨x, hx⟩ := exists_rational?_of_isExact ha
    obtain ⟨y, hy⟩ := exists_rational?_of_isExact hb
    exact ⟨x, y, hx, hy, compare?_of_rational hx hy⟩
  · intro a b c ha hb hc hab hbc
    obtain ⟨x, hx⟩ := exists_rational?_of_isExact ha
    obtain ⟨y, hy⟩ := exists_rational?_of_isExact hb
    obtain ⟨z, hz⟩ := exists_rational?_of_isExact hc
    -- not to be greater is to be at most as great
    have hLe : ∀ p q : ℚ, some (compare p q) ≠ some .gt ↔ p ≤ q := fun p q => by
      rw [Ne, Option.some_inj, compare_gt_iff_gt, not_lt]
    rw [compare?_of_rational hx hy, hLe] at hab
    rw [compare?_of_rational hy hz, hLe] at hbc
    rw [compare?_of_rational hx hz, hLe]
    exact hab.trans hbc

/-- The laws at numbers that 64-bit binary numbers do not tell apart, at a range one end of which
is not a number, and at the two zeros of 32 bits. -/
theorem compare?_laws_nearbyNumbers :
    let small : Operand := .integer .uint64 9007199254740992 (by decide)
    let middle : Operand :=
      .decimal ⟨false, 90071992547409925, 1, by decide, by decide, by decide⟩
    let large : Operand := .integer .int64 9007199254740993 (by decide)
    let zero (negative : Bool) : Operand := .single (.finite negative ⟨0, by decide⟩)
    (Constraint.range ⟨"Weight", .double .nan, large⟩).admits small = false ∧
    (∃ x y : ℚ, middle.rational? = some x ∧ large.rational? = some y ∧
      middle.compare? large = some (compare x y)) ∧
    small.compare? large ≠ some .gt ∧
    (zero true).compare? (zero false) = some ((zero true).totalCompare (zero false)) := by
  obtain ⟨-, hAdmits, -, hExact, hTrans, hKind⟩ := compare?_laws
  exact ⟨hAdmits _ _ (.inl (.inl rfl)),
    hExact _ _ (by decide) (by decide),
    hTrans _ (.decimal ⟨false, 90071992547409925, 1, by decide, by decide, by decide⟩) _
      (by decide) (by decide) (by decide) (by decide) (by decide),
    hKind _ _ rfl (by simp [IsNaN]) (by simp [IsNaN])⟩

end Operand

end ValidatorGen

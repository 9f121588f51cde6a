import ValidatorGen.Number.Binary
import Mathlib.Order.Monotone.Basic
import Mathlib.Tactic.Set

/-!
# Magnitudes and rounding

The magnitudes of a binary format are counted by ranks. A magnitude is a *significand* shifted by
some places, and its rank is made of the same two numbers, so that what is said of significands and
shifts carries over to ranks. A ratio is rounded by choosing the shift from its size and rounding
what is left to a whole significand.

A format has so many bits for a significand, and from the second binade on the leading one of them
is not written down. That is why the rank of a number is the shift times the number of significands
plus the significand, leading bit included, and why the greatest significand plus one gives the
least one of the next binade. With this, `magnitude_shifted` is the only lemma that looks into the
layout of ranks. Rounding may give a significand one too great for its binade, which is again the
next binade, so no case is needed for the carry.

Main results:

* `Format.magnitude_strictMono` — greater ranks are greater magnitudes;
* `Format.nearestRank_of_exact` — a magnitude is rounded to itself;
* `Format.exists_magnitude_eq` — a short significand with any shift is a magnitude;
* `Format.magnitude_nearestRank_le` and `Format.le_magnitude_nearestRank` — rounding does not cross
  powers of two.
-/

namespace ValidatorGen.Number

theorem twoTo_add (m n : Nat) : twoTo (m + n) = twoTo m * twoTo n := Nat.pow_add 2 m n

theorem two_mul_twoTo (n : Nat) : 2 * twoTo n = twoTo (n + 1) :=
  (Nat.mul_comm 2 _).trans (Nat.pow_succ 2 n).symm

theorem twoTo_le_twoTo {m n : Nat} (h : m ≤ n) : twoTo m ≤ twoTo n :=
  Nat.pow_le_pow_right (by decide) h

theorem log2_lt_of_lt_twoTo {n k : Nat} (hSome : n ≠ 0) (h : n < twoTo k) : n.log2 < k :=
  (Nat.log2_lt hSome).2 h

namespace Format

/-! ## Whole quotients -/

/-- Rounding goes to the quotient below or, if something is left over, to the one above. -/
theorem roundHalfEven_cases (num den : Nat) :
    roundHalfEven num den = num / den ∨
      (roundHalfEven num den = num / den + 1 ∧ (den = 0 ∨ 0 < num % den)) := by
  simp only [roundHalfEven]
  split
  · exact .inl rfl
  · split
    · next hTie =>
      rcases Nat.mod_two_eq_zero_or_one (num / den) with hEven | hOdd
      · exact .inl (by omega)
      · exact .inr ⟨by omega, by omega⟩
    · exact .inr ⟨rfl, by omega⟩

/-- A ratio that is at most a whole number is rounded to at most this number. -/
theorem roundHalfEven_le {num den k : Nat} (h : num ≤ den * k) : roundHalfEven num den ≤ k := by
  rcases Nat.eq_zero_or_pos den with rfl | hPos
  · obtain rfl : num = 0 := by omega
    exact Nat.zero_le k
  have hFloor : num / den ≤ k := Nat.div_le_of_le_mul h
  rcases roundHalfEven_cases num den with hDown | ⟨hUp, hRest⟩
  · omega
  · -- what is left over stands between the quotient below and the bound
    have hSplit := Nat.div_add_mod num den
    have hNe : num / den ≠ k := by
      intro hEq
      rw [hEq] at hSplit
      omega
    omega

/-- A ratio that is at least a whole number is rounded to at least this number. -/
theorem le_roundHalfEven {num den k : Nat} (hPos : 0 < den) (h : den * k ≤ num) :
    k ≤ roundHalfEven num den := by
  have hFloor : k ≤ num / den := by
    rw [Nat.le_div_iff_mul_le hPos, Nat.mul_comm]
    exact h
  rcases roundHalfEven_cases num den with hDown | ⟨hUp, -⟩ <;> omega

theorem roundHalfEven_mul {n den : Nat} (hPos : 0 < den) : roundHalfEven (n * den) den = n :=
  Nat.le_antisymm (roundHalfEven_le (Nat.le_of_eq (Nat.mul_comm n den)))
    (le_roundHalfEven hPos (Nat.le_of_eq (Nat.mul_comm den n)))

/-! ## Significands and shifts -/

variable {f : Format} {shift significand : Nat}

/-- Whether a significand with a shift is in normal form: it has as many bits as there are, unless
it is not shifted at all. Numbers in the first binade are not shifted, and have no leading bit. -/
structure Normal (f : Format) (shift significand : Nat) : Prop where
  lt : significand < 2 * twoTo f.significandBits
  full : shift = 0 ∨ twoTo f.significandBits ≤ significand

/-- The rank is made of the shift and the significand; one more than the greatest significand gives
the next binade. The bound on the significand includes the carry. -/
theorem magnitude_shifted (hLe : significand ≤ 2 * twoTo f.significandBits)
    (hFull : shift = 0 ∨ twoTo f.significandBits ≤ significand) :
    f.magnitude (shift * twoTo f.significandBits + significand) = significand * twoTo shift := by
  simp only [magnitude]
  have hPos := twoTo_pos f.significandBits
  set b := twoTo f.significandBits with hb
  -- the binade of a rank, and what is left of it
  have hParts : ∀ binade offset, offset < b → (binade * b + offset) / b = binade ∧
      (binade * b + offset) % b = offset := by
    intro binade offset hOffset
    constructor
    · rw [Nat.add_comm, Nat.add_mul_div_right _ _ hPos, Nat.div_eq_of_lt hOffset, Nat.zero_add]
    · rw [Nat.add_comm, Nat.add_mul_mod_self_right, Nat.mod_eq_of_lt hOffset]
  rcases Nat.lt_or_ge significand b with hSmall | hLarge
  · obtain rfl : shift = 0 := by omega
    obtain ⟨hBinade, hOffset⟩ := hParts 0 significand hSmall
    rw [hBinade, hOffset, if_pos rfl]
    show significand = significand * 1
    omega
  · rcases Nat.lt_or_ge significand (2 * b) with hLt | hGe
    · obtain ⟨hBinade, hOffset⟩ := hParts (shift + 1) (significand - b) (by omega)
      have hRank : shift * b + significand = (shift + 1) * b + (significand - b) := by
        rw [Nat.add_mul]
        omega
      rw [hRank, hBinade, hOffset, if_neg (by omega), Nat.add_sub_cancel,
        Nat.add_sub_cancel' hLarge]
    · obtain rfl : significand = 2 * b := by omega
      obtain ⟨hBinade, hOffset⟩ := hParts (shift + 2) 0 hPos
      have hRank : shift * b + 2 * b = (shift + 2) * b + 0 := by
        rw [Nat.add_mul]
        omega
      rw [hRank, hBinade, hOffset, if_neg (by omega), Nat.add_zero,
        show shift + 2 - 1 = shift + 1 by omega, ← two_mul_twoTo, ← Nat.mul_assoc, Nat.mul_comm b]

theorem Normal.magnitude_eq (h : f.Normal shift significand) :
    f.magnitude (shift * twoTo f.significandBits + significand) = significand * twoTo shift :=
  magnitude_shifted (Nat.le_of_lt h.lt) h.full

/-- Every rank is made of a shift and a significand. -/
theorem exists_normal (f : Format) (rank : Nat) : ∃ shift significand,
    f.Normal shift significand ∧ rank = shift * twoTo f.significandBits + significand := by
  have hPos := twoTo_pos f.significandBits
  have hSplit := Nat.div_add_mod' rank (twoTo f.significandBits)
  have hOffset := Nat.mod_lt rank hPos
  -- in the first binade there is no leading bit
  rcases Nat.eq_zero_or_eq_succ_pred (rank / twoTo f.significandBits) with hFirst | hLater
  · exact ⟨0, rank, ⟨by rw [hFirst] at hSplit; omega, .inl rfl⟩, by omega⟩
  · rw [hLater, Nat.succ_mul] at hSplit
    refine ⟨(rank / twoTo f.significandBits).pred,
      twoTo f.significandBits + rank % twoTo f.significandBits, ⟨?_, .inr ?_⟩, ?_⟩ <;> omega

/-- **Greater ranks are greater magnitudes.** -/
theorem magnitude_strictMono (f : Format) : StrictMono f.magnitude := by
  refine strictMono_nat_of_lt_succ fun rank => ?_
  obtain ⟨shift, significand, hNormal, rfl⟩ := f.exists_normal rank
  have hLt := hNormal.lt
  have hNext : f.magnitude (shift * twoTo f.significandBits + (significand + 1)) =
      (significand + 1) * twoTo shift :=
    magnitude_shifted (by omega) (hNormal.full.imp_right fun h => by omega)
  rw [hNormal.magnitude_eq, Nat.add_assoc, hNext]
  exact Nat.mul_lt_mul_of_pos_right (Nat.lt_succ_self _) (twoTo_pos shift)

theorem magnitude_zero (f : Format) : f.magnitude 0 = 0 := by
  have h : f.magnitude (0 * twoTo f.significandBits + 0) = 0 * twoTo 0 :=
    magnitude_shifted (Nat.zero_le _) (.inl rfl)
  rwa [Nat.zero_mul, Nat.zero_mul] at h

/-- **A short significand with any shift is a magnitude.** Its normal form has the significand
shifted up as far as the shift allows. -/
theorem exists_magnitude_eq (f : Format) {n : Nat} (h : n < 2 * twoTo f.significandBits)
    (places : Nat) : ∃ rank, f.magnitude rank = n * twoTo places := by
  rcases Nat.eq_zero_or_pos n with rfl | hPos
  · exact ⟨0, by rw [magnitude_zero, Nat.zero_mul]⟩
  -- the bits that are free are taken from the shift, as far as it goes
  have hLow := Nat.log2_self_le (Nat.ne_of_gt hPos)
  have hHigh := Nat.lt_log2_self (n := n)
  have hShort : n.log2 ≤ f.significandBits := by
    have hBits : n.log2 < f.significandBits + 1 :=
      log2_lt_of_lt_twoTo (Nat.ne_of_gt hPos) (by rwa [← two_mul_twoTo])
    omega
  set free := min (f.significandBits - n.log2) places with hFree
  have hNormal : f.Normal (places - free) (n * twoTo free) := by
    constructor
    · calc n * twoTo free < twoTo (n.log2 + 1) * twoTo free :=
            Nat.mul_lt_mul_of_pos_right hHigh (twoTo_pos free)
        _ = twoTo (n.log2 + 1 + free) := (twoTo_add _ _).symm
        _ ≤ twoTo (f.significandBits + 1) := twoTo_le_twoTo (by omega)
        _ = 2 * twoTo f.significandBits := (two_mul_twoTo _).symm
    · rcases Nat.le_total places (f.significandBits - n.log2) with hAll | hSome
      · exact .inl (by omega)
      · refine .inr ?_
        calc twoTo f.significandBits = twoTo n.log2 * twoTo free := by
              rw [← twoTo_add]
              exact congrArg twoTo (by omega)
          _ ≤ n * twoTo free := Nat.mul_le_mul_right _ hLow
  refine ⟨_, hNormal.magnitude_eq.trans ?_⟩
  rw [Nat.mul_assoc, ← twoTo_add]
  exact congrArg (n * twoTo ·) (by omega)

/-! ## Rounding a ratio -/

/-- By how many places a number of units is shifted to leave a significand. It is what normal forms
have, and rounding takes it from the size of the ratio. -/
def shiftOf (f : Format) (units : Nat) : Nat :=
  Nat.log2 units - f.significandBits

theorem nearestRank_eq (f : Format) (num den : Nat) :
    f.nearestRank num den =
      f.shiftOf (num * twoTo f.fineness / den) * twoTo f.significandBits +
        roundHalfEven (num * twoTo f.fineness)
          (den * twoTo (f.shiftOf (num * twoTo f.fineness / den))) := rfl

/-- A normal form is found again from the magnitude. -/
theorem Normal.shiftOf_eq (h : f.Normal shift significand) :
    f.shiftOf (significand * twoTo shift) = shift := by
  have hLt := h.lt
  have hPos := twoTo_pos f.significandBits
  rw [shiftOf]
  rcases h.full with rfl | hFull
  · -- without a shift the significand is the magnitude
    rw [show significand * twoTo 0 = significand from Nat.mul_one significand]
    rcases Nat.eq_zero_or_pos significand with rfl | hSome
    · exact Nat.zero_sub _
    · have hBits : significand.log2 < f.significandBits + 1 :=
        log2_lt_of_lt_twoTo (Nat.ne_of_gt hSome) (by rwa [← two_mul_twoTo])
      omega
  · have hLog : (significand * twoTo shift).log2 = f.significandBits + shift := by
      rw [Nat.log2_eq_iff (Nat.mul_ne_zero (by omega) (Nat.ne_of_gt (twoTo_pos shift)))]
      constructor
      · rw [Nat.pow_add]
        exact Nat.mul_le_mul_right _ hFull
      · show significand * twoTo shift < twoTo (f.significandBits + shift + 1)
        rw [show f.significandBits + shift + 1 = f.significandBits + 1 + shift by omega,
          twoTo_add, ← two_mul_twoTo]
        exact Nat.mul_lt_mul_of_pos_right hLt (twoTo_pos shift)
    rw [hLog, Nat.add_sub_cancel_left]

/-- **A magnitude is rounded to itself.** The shift is that of the normal form of the magnitude, and
the quotient leaves nothing over. -/
theorem nearestRank_of_exact {num den rank : Nat} (hPos : 0 < den)
    (h : num * twoTo f.fineness = f.magnitude rank * den) : f.nearestRank num den = rank := by
  obtain ⟨shift, significand, hNormal, rfl⟩ := f.exists_normal rank
  rw [hNormal.magnitude_eq] at h
  have hUnits : num * twoTo f.fineness / den = significand * twoTo shift := by
    rw [h, Nat.mul_div_cancel _ hPos]
  have hSpaced : num * twoTo f.fineness = significand * (den * twoTo shift) := by
    rw [h, Nat.mul_assoc, Nat.mul_comm den]
  rw [nearestRank_eq, hUnits, hNormal.shiftOf_eq, hSpaced,
    roundHalfEven_mul (Nat.mul_pos hPos (twoTo_pos shift))]

/-- The magnitude to which a ratio is rounded: a whole multiple of the spacing around it. -/
theorem magnitude_nearestRank (f : Format) (num den : Nat) :
    f.magnitude (f.nearestRank num den) =
      roundHalfEven (num * twoTo f.fineness)
          (den * twoTo (f.shiftOf (num * twoTo f.fineness / den))) *
        twoTo (f.shiftOf (num * twoTo f.fineness / den)) := by
  rw [nearestRank_eq]
  set units := num * twoTo f.fineness / den with hUnits
  have hFloor : num * twoTo f.fineness / (den * twoTo (f.shiftOf units)) =
      units / twoTo (f.shiftOf units) := by
    rw [← Nat.div_div_eq_div_mul]
  -- The significand fits because the shift takes off all bits that are too many.
  have hBounds : units / twoTo (f.shiftOf units) < 2 * twoTo f.significandBits := by
    rw [Nat.div_lt_iff_lt_mul (twoTo_pos _), two_mul_twoTo, ← twoTo_add]
    refine Nat.lt_of_lt_of_le Nat.lt_log2_self (twoTo_le_twoTo ?_)
    rw [shiftOf]
    omega
  -- Where there is a shift, the leading bit is set: the shift is taken from the logarithm.
  have hFull : f.shiftOf units = 0 ∨
      twoTo f.significandBits ≤ units / twoTo (f.shiftOf units) := by
    rcases Nat.eq_zero_or_pos (f.shiftOf units) with hNone | hSome
    · exact .inl hNone
    · have hLog : units.log2 = f.significandBits + f.shiftOf units := by
        rw [shiftOf] at hSome ⊢
        omega
      have hUnitsNe : units ≠ 0 := by
        intro hZero
        rw [hZero] at hLog hSome
        rw [Nat.log2_zero] at hLog
        omega
      refine .inr ?_
      rw [Nat.le_div_iff_mul_le (twoTo_pos _), ← twoTo_add, ← hLog]
      exact Nat.log2_self_le hUnitsNe
  -- Rounding up may carry into the next power of two, which `magnitude_shifted` allows for.
  have hRounded := roundHalfEven_cases (num * twoTo f.fineness) (den * twoTo (f.shiftOf units))
  rw [hFloor] at hRounded
  exact magnitude_shifted (by omega) (hFull.imp_right fun hLeading => by omega)

/-- **Rounding does not go above a power of two.** The power of two is a whole multiple of the
spacing, and rounding to multiples does not pass one. -/
theorem magnitude_nearestRank_le {num den n : Nat} (hBits : f.significandBits ≤ n)
    (h : num * twoTo f.fineness ≤ den * twoTo n) :
    f.magnitude (f.nearestRank num den) ≤ twoTo n := by
  rw [magnitude_nearestRank]
  set units := num * twoTo f.fineness / den with hUnits
  have hUnitsLe : units ≤ 2 ^ n := Nat.div_le_of_le_mul h
  have hShift : f.shiftOf units ≤ n := by
    rcases Nat.eq_zero_or_pos units with hZero | hPos
    · rw [hZero, shiftOf, Nat.log2_zero, Nat.zero_sub]
      exact Nat.zero_le n
    · have hLog : units.log2 < n + 1 := by
        rw [Nat.log2_lt (Nat.ne_of_gt hPos), Nat.pow_succ]
        omega
      rw [shiftOf]
      omega
  -- the bound is a multiple of the spacing
  have hSplit : twoTo (n - f.shiftOf units) * twoTo (f.shiftOf units) = twoTo n := by
    rw [← twoTo_add, Nat.sub_add_cancel hShift]
  have hRounded : roundHalfEven (num * twoTo f.fineness) (den * twoTo (f.shiftOf units)) ≤
      twoTo (n - f.shiftOf units) := by
    refine roundHalfEven_le ?_
    rw [Nat.mul_assoc, Nat.mul_comm (twoTo (f.shiftOf units)), hSplit]
    exact h
  rw [← hSplit]
  exact Nat.mul_le_mul_right _ hRounded

/-- **Rounding does not go below a power of two.** -/
theorem le_magnitude_nearestRank {num den n : Nat} (hPos : 0 < den)
    (h : den * twoTo n ≤ num * twoTo f.fineness) :
    twoTo n ≤ f.magnitude (f.nearestRank num den) := by
  rw [magnitude_nearestRank]
  set units := num * twoTo f.fineness / den with hUnits
  have hUnitsLe : 2 ^ n ≤ units := by
    rw [hUnits, Nat.le_div_iff_mul_le hPos, Nat.mul_comm]
    exact h
  have hUnitsNe : units ≠ 0 := Nat.ne_of_gt (Nat.lt_of_lt_of_le (twoTo_pos n) hUnitsLe)
  -- the power of two below the units, which is a multiple of the spacing
  have hShift : f.shiftOf units ≤ units.log2 := by
    rw [shiftOf]
    omega
  have hSplit : twoTo (units.log2 - f.shiftOf units) * twoTo (f.shiftOf units) =
      twoTo units.log2 := by
    rw [← twoTo_add, Nat.sub_add_cancel hShift]
  have hRounded : twoTo (units.log2 - f.shiftOf units) ≤
      roundHalfEven (num * twoTo f.fineness) (den * twoTo (f.shiftOf units)) := by
    refine le_roundHalfEven (Nat.mul_pos hPos (twoTo_pos _)) ?_
    rw [Nat.mul_assoc, Nat.mul_comm (twoTo (f.shiftOf units)), hSplit, Nat.mul_comm,
      ← Nat.le_div_iff_mul_le hPos]
    exact Nat.log2_self_le hUnitsNe
  have hPower := twoTo_le_twoTo ((Nat.le_log2 hUnitsNe).2 hUnitsLe)
  rw [← hSplit] at hPower
  exact Nat.le_trans hPower (Nat.mul_le_mul_right _ hRounded)

end Format

end ValidatorGen.Number

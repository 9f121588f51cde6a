import ValidatorGen.Proofs.DecimalText
import ValidatorGen.Proofs.Rounding
import Mathlib.Algebra.GroupWithZero.Basic
import Mathlib.Algebra.Order.Field.Basic

/-!
# The text of binary numbers

A binary number is written as the shortest decimal number among those that are rounded to it. Which
one that is depends on a search; that it is one of them does not. Since no number is rounded to two
binary numbers, the text of a finite binary number determines it, however the digits are laid out.

The numbers that are rounded to a binary number make up an interval around it, with its ends if the
rank is even. The intervals of two ranks can at most have an end in common, and then they are those
of neighbours, one of which is odd. So the intervals are apart, and a number in one of them belongs
to its rank alone. All that is needed of the search is that it gives a number in the interval, which
it tests before it stops.

The digits found are laid out in one of three ways: whole, with a point among or before them, or
with an exponent. `SpellsNumber` says which number a text spells without asking how, by the grammar
of decimal texts, and each layout spells the number found.

Main results:

* `RoundingInterval.not_contains_of_lt` — no number is rounded to two binary numbers;
* `exists_contains_shortest` — the shortest number is rounded to the one it is written for;
* `SpellsNumber.unique` — a decimal text spells one number;
* `Operand.binaryLiteral_injective` — different binary numbers have different literals.
-/

namespace ValidatorGen.Number

/-! ## Rounding intervals -/

namespace RoundingInterval

/-- An interval has its ends in it if it is closed. -/
theorem contains_iff {i : RoundingInterval} {n : Nat} :
    i.contains n = true ↔
      i.low ≤ n ∧ n ≤ i.high ∧ (i.closed = true ∨ (i.low < n ∧ n < i.high)) := by
  rw [contains]
  split
  · next hClosed => simp [hClosed]
  · next hOpen =>
    rw [Bool.not_eq_true] at hOpen
    simp only [Bool.and_eq_true, decide_eq_true_eq, hOpen, Bool.false_eq_true, false_or]
    omega

variable {f : Format} {rank other n : Nat}

theorem scale_pos (f : Format) : 0 < Nat.pow 5 (f.fineness + 1) :=
  Nat.pow_pos (by decide)

/-- A number lies in its own interval. -/
theorem contains_middle (hRank : 0 < rank) :
    (ofRank f rank).contains (ofRank f rank).middle = true := by
  have hBelow : f.magnitude (rank - 1) < f.magnitude rank := f.magnitude_strictMono (by omega)
  have hAbove : f.magnitude rank < f.magnitude (rank + 1) := f.magnitude_strictMono (by omega)
  have hLow : (ofRank f rank).low < (ofRank f rank).middle :=
    Nat.mul_lt_mul_of_pos_right (by omega) (scale_pos f)
  have hHigh : (ofRank f rank).middle < (ofRank f rank).high :=
    Nat.mul_lt_mul_of_pos_right (by omega) (scale_pos f)
  exact contains_iff.2 ⟨by omega, by omega, .inr ⟨hLow, hHigh⟩⟩

theorem pos_of_contains (hRank : 0 < rank) (h : (ofRank f rank).contains n = true) : 0 < n := by
  have hPos : 0 < f.magnitude rank := Nat.lt_of_le_of_lt (Nat.zero_le _)
    (f.magnitude_strictMono hRank)
  have hLow : 0 < (ofRank f rank).low := Nat.mul_pos (by omega) (scale_pos f)
  exact Nat.lt_of_lt_of_le hLow (contains_iff.1 h).1

/-- **No number is rounded to two binary numbers.** Where the upper end of one interval is the lower
end of another one, the ranks are neighbours, and only an even rank has its ends. -/
theorem not_contains_of_lt (hLt : rank < other) (h : (ofRank f rank).contains n = true) :
    (ofRank f other).contains n = false := by
  by_contra hNot
  obtain ⟨-, hHigh, hRank⟩ := contains_iff.1 h
  obtain ⟨hLow, -, hOther⟩ := contains_iff.1 (Bool.not_eq_false _ ▸ hNot)
  have hBelow : f.magnitude rank ≤ f.magnitude (other - 1) :=
    f.magnitude_strictMono.monotone (by omega)
  have hAbove : f.magnitude (rank + 1) ≤ f.magnitude other :=
    f.magnitude_strictMono.monotone (by omega)
  have hMeet : (ofRank f rank).high ≤ (ofRank f other).low :=
    Nat.mul_le_mul_right _ (by omega)
  -- the intervals have an end in common, so they are both closed, and both ranks are even
  have hRankEven : rank % 2 = 0 := of_decide_eq_true (hRank.resolve_right (by omega))
  have hOtherEven : other % 2 = 0 := of_decide_eq_true (hOther.resolve_right (by omega))
  -- but then a rank lies between them
  have hBetween : f.magnitude rank < f.magnitude (other - 1) := f.magnitude_strictMono (by omega)
  have hApart : (ofRank f rank).high < (ofRank f other).low :=
    Nat.mul_lt_mul_of_pos_right (by omega) (scale_pos f)
  omega

/-- A multiple that is accepted lies in the interval, whichever of the two around the middle it is.
-/
theorem contains_nearestMultiple? {i : RoundingInterval} {tie : Tie} {step c : Nat}
    (h : i.nearestMultiple? tie step = some c) : i.contains (c * step) = true := by
  unfold nearestMultiple? at h
  dsimp only at h
  split at h
  · cases h
  · next hBelow _ => rwa [← Option.some.inj h]
  · next _ hAbove => rwa [← Option.some.inj h]
  · next hBelow hAbove =>
    split at h
    · rwa [← Option.some.inj h]
    · split at h
      · rwa [← Option.some.inj h]
      -- Both multiples are accepted and equally far away. The even one is one of the two.
      · cases tie with
        | up => rwa [← Option.some.inj h]
        | even =>
          rw [← Option.some.inj h]
          rcases Nat.mod_two_eq_zero_or_one (i.middle / step) with hEven | hOdd
          · rwa [hEven]
          · rwa [hOdd]

end RoundingInterval

/-! ## The shortest number -/

namespace Scientific

/-- The number that a coefficient and an exponent stand for. -/
def value (d : Scientific) : ℚ :=
  d.coefficient * 10 ^ d.exponent

/-- Zeros at the end of a coefficient are counted by the exponent as well. -/
theorem value_stripZeros (fuel : Nat) (d : Scientific) : (stripZeros fuel d).value = d.value := by
  induction fuel generalizing d with
  | zero => rfl
  | succ fuel ih =>
    rw [stripZeros]
    split
    · next hZero =>
      rw [ih, value, value]
      have hSplit : d.coefficient = d.coefficient / 10 * 10 := by omega
      have hCast : (d.coefficient : ℚ) = (d.coefficient / 10 : Nat) * 10 := by
        rw [← Nat.cast_ofNat (R := ℚ) (n := 10), ← Nat.cast_mul, ← hSplit]
      rw [zpow_add_one₀ (by norm_num), hCast]
      ring
    · rfl

end Scientific

/-- **The shortest number is rounded to the one it is written for.** Nothing is said about how few
digits it has. -/
theorem exists_contains_shortest (f : Format) (tie : Tie) {rank : Nat} (hRank : 0 < rank) :
    ∃ n, (RoundingInterval.ofRank f rank).contains n = true ∧
      (shortest f tie rank).value = n / 10 ^ (f.fineness + 1) := by
  rw [shortest]
  set interval := RoundingInterval.ofRank f rank with hInterval
  -- either the search finds a multiple of a power of ten, or the number itself is written
  cases hFound : (List.range' 1 17).findSome? fun n =>
      (interval.nearestMultiple? tie (tenTo ((Nat.toDigits 10 interval.middle).length - n))).map
        fun c => Scientific.stripZeros 2
          ⟨c, ((Nat.toDigits 10 interval.middle).length - n : Nat) - (f.fineness + 1 : Nat)⟩ with
  | none =>
    refine ⟨interval.middle, RoundingInterval.contains_middle hRank, ?_⟩
    rw [Option.getD_none, Scientific.value, zpow_neg, zpow_natCast, div_eq_mul_inv]
  | some s =>
    obtain ⟨n, -, hAttempt⟩ := List.exists_of_findSome?_eq_some hFound
    obtain ⟨c, hMultiple, rfl⟩ := Option.map_eq_some_iff.1 hAttempt
    refine ⟨_, RoundingInterval.contains_nearestMultiple? hMultiple, ?_⟩
    rw [Option.getD_some, Scientific.value_stripZeros, Scientific.value,
      zpow_sub₀ (by norm_num), zpow_natCast, zpow_natCast, Nat.cast_mul, mul_div_assoc]
    congr 2
    exact (Nat.cast_pow 10 _).symm

/-- The number that is written for a magnitude. -/
def printedMagnitude (f : Format) (rank : Nat) : ℚ :=
  if rank = 0 then 0 else (shortest f .up rank).value

/-- Different numbers are written for different magnitudes. Magnitudes other than zero are written
as numbers in their intervals, which are apart, and zero has a text of its own. -/
theorem printedMagnitude_injective (f : Format) : Function.Injective (printedMagnitude f) := by
  have hPower : (10 : ℚ) ^ (f.fineness + 1) ≠ 0 := pow_ne_zero _ (by norm_num)
  -- only zero is written as zero
  have hZero : ∀ rank, 0 < rank → printedMagnitude f rank ≠ 0 := by
    intro rank hRank hNone
    obtain ⟨n, hContains, hValue⟩ := exists_contains_shortest f .up hRank
    have hPos := RoundingInterval.pos_of_contains hRank hContains
    rw [printedMagnitude, if_neg (Nat.ne_of_gt hRank), hValue, div_eq_zero_iff] at hNone
    exact Nat.ne_of_gt hPos (Nat.cast_eq_zero.1 (hNone.resolve_right hPower))
  have hLt : ∀ rank other, rank < other → printedMagnitude f rank ≠ printedMagnitude f other := by
    intro rank other hLess hSame
    rcases Nat.eq_zero_or_pos rank with rfl | hRank
    · exact hZero other hLess hSame.symm
    · obtain ⟨n, hContains, hValue⟩ := exists_contains_shortest f .up hRank
      obtain ⟨m, hOther, hOtherValue⟩ :=
        exists_contains_shortest f .up (Nat.lt_trans hRank hLess)
      rw [printedMagnitude, printedMagnitude, if_neg (Nat.ne_of_gt hRank), if_neg (by omega),
        hValue, hOtherValue, div_left_inj' hPower, Nat.cast_inj] at hSame
      subst hSame
      rw [RoundingInterval.not_contains_of_lt hLess hContains] at hOther
      cases hOther
  intro rank other hSame
  rcases Nat.lt_trichotomy rank other with hLess | hEqual | hGreater
  · exact absurd hSame (hLt _ _ hLess)
  · exact hEqual
  · exact absurd hSame.symm (hLt _ _ hGreater)

/-! ## Texts and the numbers they spell -/

/-- Whether a text is a decimal text with this sign for this magnitude. The digits before and behind
the point make one whole number, which is scaled by the places behind the point and by the exponent.
-/
def SpellsNumber (cs : List Char) (negative : Bool) (magnitude : ℚ) : Prop :=
  ∃ whole fraction exponent, DecimalText cs negative whole fraction exponent ∧
    magnitude = Nat.ofDigitChars 10 (whole ++ fraction) 0 * 10 ^ (exponent - fraction.length : ℤ)

theorem Literal.Raises.unique {written : Option (Bool × List Char)} {x y : Int}
    (hx : Raises written x) (hy : Raises written y) : x = y := by
  cases hx <;> cases hy <;> rfl

/-- **A decimal text spells one number.** The text is parsed in one way, into the same digits and
the same exponent. -/
theorem SpellsNumber.unique {cs : List Char} {negative negative' : Bool} {x y : ℚ}
    (hx : SpellsNumber cs negative x) (hy : SpellsNumber cs negative' y) :
    negative = negative' ∧ x = y := by
  obtain ⟨whole, fraction, exponent, hText, rfl⟩ := hx
  obtain ⟨whole', fraction', exponent', hText', rfl⟩ := hy
  obtain ⟨written, hParse, hRaises⟩ := Literal.exists_parse?_eq hText
  obtain ⟨written', hParse', hRaises'⟩ := Literal.exists_parse?_eq hText'
  obtain ⟨rfl, rfl, rfl, rfl⟩ := Literal.mk.inj (Option.some.inj (hParse.symm.trans hParse'))
  exact ⟨rfl, by rw [hRaises.unique hRaises']⟩

/-- Digits, signs, points and the marks of exponents. -/
def isNumeralChar (c : Char) : Bool :=
  c.isDigit || c ∈ ['-', '+', '.', 'e', 'E']

theorem isNumeralChar_of_isDigit {c : Char} (h : c.isDigit = true) : isNumeralChar c = true := by
  rw [isNumeralChar, h, Bool.true_or]

theorem SpellsSign.isNumeralChar {negative : Bool} {sign : List Char}
    (h : SpellsSign negative sign) : ∀ c ∈ sign, isNumeralChar c = true := by
  cases h with
  | none => exact fun _ hc => absurd hc List.not_mem_nil
  | plus => exact List.forall_mem_singleton.2 rfl
  | minus => exact List.forall_mem_singleton.2 rfl

/-- Decimal texts have no other characters. -/
theorem DecimalText.isNumeralChar {cs whole fraction : List Char} {negative : Bool} {exponent : Int}
    (h : DecimalText cs negative whole fraction exponent) :
    ∀ c ∈ cs, isNumeralChar c = true := by
  obtain ⟨⟨sign, fractionText, exponentText, rfl, hSign, hFraction, hExponent⟩, hDigits, -⟩ := h
  intro c hc
  rw [List.mem_append, List.mem_append, List.mem_append] at hc
  rcases hc with hc | hc | hc | hc
  · exact hSign.isNumeralChar c hc
  · exact isNumeralChar_of_isDigit (hDigits c (List.mem_append_left _ hc))
  · cases hFraction with
    | none => exact absurd hc List.not_mem_nil
    | point =>
      rcases List.mem_cons.1 hc with rfl | hc
      · rfl
      · exact isNumeralChar_of_isDigit (hDigits c (List.mem_append_right _ hc))
  · cases hExponent with
    | none => exact absurd hc List.not_mem_nil
    | mark hMark hSign _ hExponentDigits =>
      rw [List.mem_cons, List.mem_append] at hc
      rcases hc with rfl | hc | hc
      · rcases hMark with rfl | rfl <;> rfl
      · exact hSign.isNumeralChar c hc
      · exact isNumeralChar_of_isDigit (hExponentDigits c hc)

theorem SpellsNumber.isNumeralChar {cs : List Char} {negative : Bool} {x : ℚ}
    (h : SpellsNumber cs negative x) : ∀ c ∈ cs, isNumeralChar c = true := by
  obtain ⟨_, _, _, hText, -⟩ := h
  exact hText.isNumeralChar

/-- Positional text behind a sign spells its digits with as many of them behind the point. -/
theorem PositionalText.spellsNumber {text : List Char} {value places : Nat}
    (h : PositionalText text value places) (negative : Bool) :
    SpellsNumber ((if negative then ['-'] else []) ++ text) negative (value / 10 ^ places) := by
  obtain ⟨before, after, rfl, hBefore, hDigits, rfl, rfl⟩ := h
  have hFraction : SpellsFraction after (if after = [] then [] else '.' :: after) := by
    split
    · next hNone =>
      rw [hNone]
      exact .none
    · next hSome => exact .point hSome
  have hNonempty : before ++ after ≠ [] := fun hNil => hBefore (List.append_eq_nil_iff.1 hNil).1
  refine ⟨before, after, 0, ⟨⟨_, _, [], ?_, .printed negative, hFraction, .none⟩, hDigits,
    hNonempty⟩, ?_⟩
  · rw [List.append_nil]
  · rw [zero_sub, zpow_neg, zpow_natCast, div_eq_mul_inv]

theorem Scientific.isDigit_of_mem_digits {d : Scientific} {c : Char} (h : c ∈ d.digits) :
    c.isDigit = true :=
  isDigit_of_mem_toDigits_ten h

theorem Scientific.ofDigitChars_digits (d : Scientific) :
    Nat.ofDigitChars 10 d.digits 0 = d.coefficient :=
  Nat.ofDigitChars_ten_toDigits

/-- Digits with a point among them make up the number, wherever the point stands. -/
theorem Scientific.exists_positionalText (d : Scientific) :
    ∃ digits places, PositionalText d.positional digits places ∧
      d.value = digits / 10 ^ places := by
  have hDigits : ∀ c ∈ d.digits, c.isDigit = true := fun _ => isDigit_of_mem_digits
  have hSome : d.digits ≠ [] := Nat.toDigits_ne_nil
  rw [positional]
  dsimp only
  -- The three layouts: zeros behind the digits, a point among them, and zeros in front.
  split
  · next hWhole =>
    refine ⟨_, _, .of_point_after hDigits hSome _, ?_⟩
    have hPower : (10 : ℚ) ^ d.exponent = 10 ^ d.exponent.toNat := by
      rw [← zpow_natCast, Int.toNat_of_nonneg hWhole]
    rw [value, hPower, ofDigitChars_digits, pow_zero, div_one]
    push_cast
    rfl
  · next hFraction =>
    have hPower : d.value = d.coefficient / 10 ^ (-d.exponent).toNat := by
      rw [value, div_eq_mul_inv, ← zpow_natCast, Int.toNat_of_nonneg (by omega), zpow_neg, inv_inv]
    split
    · next hAmong =>
      refine ⟨_, _, .of_point_among hDigits (by omega) (by omega), ?_⟩
      rw [hPower, ofDigitChars_digits, Nat.sub_sub_self (Nat.le_of_lt hAmong)]
    · next hBefore =>
      refine ⟨_, _, .of_point_before hDigits hSome _, ?_⟩
      rw [hPower, ofDigitChars_digits, Nat.sub_add_cancel (Nat.le_of_not_lt hBefore)]

theorem Scientific.spellsNumber_positional (d : Scientific) (negative : Bool) :
    SpellsNumber ((if negative then ['-'] else []) ++ d.positional) negative d.value := by
  obtain ⟨digits, places, hText, hValue⟩ := d.exists_positionalText
  rw [hValue]
  exact hText.spellsNumber negative

/-- The digits of an exponent, behind its sign. -/
theorem spellsExponent_printed (power : Int) :
    SpellsExponent power
      ('e' :: ((if power < 0 then ['-'] else []) ++ Nat.toDigits 10 power.natAbs)) := by
  have hSpells := SpellsExponent.mark (c := 'e') (.inl rfl) (.printed (decide (power < 0)))
    (Nat.toDigits_ne_nil : Nat.toDigits 10 power.natAbs ≠ [])
    fun _ hd => isDigit_of_mem_toDigits_ten hd
  rw [Nat.ofDigitChars_ten_toDigits] at hSpells
  have hPower : (if decide (power < 0) = true then -(power.natAbs : Int) else power.natAbs) =
      power := by
    simp only [decide_eq_true_eq]
    split <;> omega
  rw [hPower] at hSpells
  simpa only [decide_eq_true_eq] using hSpells

/-- One digit before the point and an exponent spell the number. -/
theorem Scientific.spellsNumber_withExponent (d : Scientific) (negative : Bool) :
    SpellsNumber ((if negative then ['-'] else []) ++ d.withExponent false) negative d.value := by
  have hSome : d.digits ≠ [] := Nat.toDigits_ne_nil
  obtain ⟨first, rest, hDigits⟩ := List.exists_cons_of_ne_nil hSome
  have hAll : ∀ c ∈ [first] ++ rest, c.isDigit = true := by
    intro c hc
    exact isDigit_of_mem_digits (d := d) (by rwa [hDigits])
  have hFraction : SpellsFraction rest (if rest = [] then [] else '.' :: rest) := by
    split
    · next hNone =>
      rw [hNone]
      exact .none
    · next hSome => exact .point hSome
  have hText : d.withExponent false = [first] ++ ((if rest = [] then [] else '.' :: rest) ++
      'e' :: ((if d.leading < 0 then ['-'] else []) ++ Nat.toDigits 10 d.leading.natAbs)) := by
    rw [withExponent, hDigits]
    cases rest <;> rfl
  refine ⟨[first], rest, d.leading, ⟨⟨_, _, _, ?_, .printed negative, hFraction,
    spellsExponent_printed d.leading⟩, hAll, List.cons_ne_nil _ _⟩, ?_⟩
  · rw [hText]
  · -- the exponent counts the digits behind the point
    have hPower : d.leading - rest.length = d.exponent := by
      rw [leading, hDigits, List.length_cons]
      omega
    rw [hPower, value, List.singleton_append, ← hDigits, ofDigitChars_digits]

end ValidatorGen.Number

namespace ValidatorGen.Operand

open Number

/-! ## Literals of binary numbers -/

/-- The digits of a magnitude other than zero are laid out in one of two ways. -/
theorem magnitudeChars_cases (f : Format) {rank : Fin f.ranks} (h : rank.val ≠ 0) :
    magnitudeChars f rank = (shortest f .up rank).positional ∨
      magnitudeChars f rank = (shortest f .up rank).withExponent false := by
  unfold magnitudeChars
  rw [if_neg h]
  exact ite_eq_or_eq _ _ _

theorem spellsNumber_magnitudeChars (f : Format) (negative : Bool) (rank : Fin f.ranks) :
    SpellsNumber ((if negative then ['-'] else []) ++ magnitudeChars f rank) negative
      (printedMagnitude f rank) := by
  by_cases hZero : rank.val = 0
  · have hDigit : PositionalText ['0'] 0 0 :=
      ⟨['0'], [], rfl, List.cons_ne_nil _ _, List.forall_mem_singleton.2 rfl, rfl, rfl⟩
    have hNumber := hDigit.spellsNumber negative
    rw [Nat.cast_zero, zero_div] at hNumber
    rwa [magnitudeChars, if_pos hZero, printedMagnitude, if_pos hZero]
  · rw [printedMagnitude, if_neg hZero]
    rcases magnitudeChars_cases f hZero with hLayout | hLayout
    · rw [hLayout]
      exact Scientific.spellsNumber_positional _ _
    · rw [hLayout]
      exact Scientific.spellsNumber_withExponent _ _

/-- The names of the members that stand for numbers that are not finite. -/
def memberNames : List String :=
  [".NaN", ".PositiveInfinity", ".NegativeInfinity"]

section Literals

variable {f : Format} {keyword suffix : String} {mark : Char}

/-- The name of the member that stands for a number. Finite numbers have no such name. -/
def memberName? : Binary f → Option String
  | .nan => some ".NaN"
  | .infinite false => some ".PositiveInfinity"
  | .infinite true => some ".NegativeInfinity"
  | .finite .. => none

/-- Numbers that are not finite are told apart by these names. -/
theorem memberName?_inj {a b : Binary f} (hSame : memberName? a = memberName? b)
    (hFinite : b.isFinite = false) : a = b := by
  rcases a with _ | (_ | _) | _ <;> rcases b with _ | (_ | _) | _ <;>
    first
    | rfl
    | exact absurd hFinite Bool.false_ne_true.symm
    | simp [memberName?] at hSame

/-- The literal of a number is the name of a member of its type or, if the number is finite, a
decimal text in front of the suffix. -/
theorem binaryLiteral_cases (keyword suffix : String) (b : Binary f) :
    (∃ name ∈ memberNames, memberName? b = some name ∧ b.isFinite = false ∧
      (binaryLiteral keyword suffix b).toList = keyword.toList ++ name.toList) ∨
    ∃ negative rank text, b = .finite negative rank ∧
      (binaryLiteral keyword suffix b).toList = text ++ suffix.toList ∧
      SpellsNumber text negative (printedMagnitude f rank) := by
  match b with
  | .nan =>
    exact .inl ⟨".NaN", by decide, rfl, rfl, by rw [binaryLiteral, String.toList_append]⟩
  | .infinite false =>
    refine .inl ⟨".PositiveInfinity", by decide, rfl, rfl, ?_⟩
    rw [binaryLiteral, String.toList_append]
  | .infinite true =>
    refine .inl ⟨".NegativeInfinity", by decide, rfl, rfl, ?_⟩
    rw [binaryLiteral, String.toList_append]
  | .finite negative rank =>
    refine .inr ⟨negative, rank, _, rfl, ?_, spellsNumber_magnitudeChars f negative rank⟩
    rw [binaryLiteral, String.toList_append, String.toList_ofList]

/-- No letter but the marks of exponents is in the literal of a finite number before its suffix. -/
theorem notMem_numeral {text : List Char} {negative : Bool} {x : ℚ}
    (hMark : isNumeralChar mark = false) (hNumber : SpellsNumber text negative x) :
    mark ∉ text := by
  intro hMem
  rw [hNumber.isNumeralChar mark hMem] at hMark
  exact Bool.false_ne_true hMark.symm

/-- **Different binary numbers have different literals**, zeros of different signs included. Names
of members are told from numbers by a character of the type's name that is in no number. -/
theorem binaryLiteral_injective (hMark : isNumeralChar mark = false)
    (hKeyword : mark ∈ keyword.toList) (hSuffix : mark ∉ suffix.toList) :
    Function.Injective (binaryLiteral (f := f) keyword suffix) := by
  intro a b hSame
  have hText := congrArg String.toList hSame
  -- Only infinities and what is no number are written by a name. The mark is a character of the
  -- keyword in front of it, and stands in no number and not in the suffix.
  have hApart : ∀ {name text : List Char} {negative : Bool} {x : ℚ},
      SpellsNumber text negative x → keyword.toList ++ name ≠ text ++ suffix.toList := by
    intro name text negative x hNumber hEqual
    have hMem : mark ∈ text ++ suffix.toList := hEqual ▸ List.mem_append_left _ hKeyword
    rcases List.mem_append.1 hMem with hMem | hMem
    · exact notMem_numeral hMark hNumber hMem
    · exact hSuffix hMem
  rcases binaryLiteral_cases keyword suffix a with
    ⟨name, -, ha, -, hNamed⟩ | ⟨negative, rank, text, rfl, hFinite, hNumber⟩
  · rcases binaryLiteral_cases keyword suffix b with
      ⟨name', -, hb, hOther, hNamed'⟩ | ⟨negative', rank', text', rfl, hFinite', hNumber'⟩
    · rw [hNamed, hNamed'] at hText
      obtain rfl := String.toList_injective (List.append_cancel_left hText)
      exact memberName?_inj (ha.trans hb.symm) hOther
    · rw [hNamed, hFinite'] at hText
      exact absurd hText (hApart hNumber')
  · rcases binaryLiteral_cases keyword suffix b with
      ⟨name', -, -, -, hNamed'⟩ | ⟨negative', rank', text', rfl, hFinite', hNumber'⟩
    · rw [hFinite, hNamed'] at hText
      exact absurd hText.symm (hApart hNumber)
    · rw [hFinite, hFinite'] at hText
      obtain rfl := List.append_cancel_right hText
      obtain ⟨hSign, hPrinted⟩ := hNumber.unique hNumber'
      rw [hSign, Fin.ext (printedMagnitude_injective f hPrinted)]

end Literals

end ValidatorGen.Operand

import ValidatorGen.Proofs.DecimalText

/-!
# The limit on exponents of decimal texts

Exponents above 64 are not looked at: no decimal is given, whatever the digits are. That is meant to
save work only, because such a text should stand for no decimal in any case. Here the reader is
compared with the one that has no limit. The limit saves work only for exponents below zero; above
zero it turns away texts that do stand for a decimal: zero with any exponent, and numbers with so
many zeros behind the point that a large exponent brings them back into range.

The reader without the limit is the same reader with one test left out, so it still computes the
place of the point with 32 bits. That sum stays far from its bounds when exponents are at most 64,
and does not when they may be of any size: the place after `0e2147483647` does not fit. Where this
is checked the reader without the limit aborts, and the limit is then not a matter of work either.

Main results:

* `Decimal.exists_readUnlimited_eq` — without the limit a text is read by expanding it;
* `Decimal.readUnlimited_eq_none_iff` — which texts stand for no decimal when there is no limit;
* `Decimal.limit_saves_work_only_iff` — where the limit makes no difference.
-/

namespace ValidatorGen.Number

/-- The decimal a text stands for, whatever the size of its exponent. The point is moved by any
number of places that can be computed. It differs from `Literal.toDecimal` in the test of the size
only. -/
def Literal.toDecimalUnlimited [Arithmetic] (l : Literal) : Except Abort (Option Decimal) :=
  match l.writtenExponent? with
  | none => .ok none
  | some exponent => l.expand exponent

namespace Decimal

/-- The decimal a text stands for, if it is decimal text at all, with no limit on exponents. -/
def readUnlimited [Arithmetic] (cs : List Char) : Except Abort (Option Decimal) :=
  match Literal.parse? cs with
  | none => .ok none
  | some literal => literal.toDecimalUnlimited

theorem ofParts?_eq_none_iff {negative : Bool} {mantissa scale : Nat} :
    ofParts? negative mantissa scale = none ↔ 2 ^ 96 ≤ mantissa ∨ 28 < scale := by
  unfold ofParts?
  split
  · next hRange =>
    simp only [reduceCtorEq, false_iff, not_or, not_le, not_lt]
    exact hRange
  · next hRange =>
    simp only [true_iff]
    omega

/-- What is read as no decimal is what neither aborts nor is a decimal. -/
theorem eq_ok_none_iff {answer : Except Abort (Option Decimal)} :
    answer = .ok none ↔
      ¬ answer = .error .misplacedPoint ∧ ∀ d, ¬ answer = .ok (some d) := by
  match answer with
  | .error .misplacedPoint => simp
  | .ok none => simp
  | .ok (some d) => simp

section Limit

variable [Arithmetic] {cs whole fraction : List Char} {negative : Bool} {exponent : Int}

/-- **Without the limit a decimal text is read by expanding it**, if its exponent fits 32 bits. -/
theorem exists_readUnlimited_eq (h : DecimalText cs negative whole fraction exponent)
    (hFits : Fits32 exponent) :
    ∃ written, readUnlimited cs = Literal.expand ⟨negative, whole, fraction, written⟩ exponent := by
  obtain ⟨written, hParse, hRaises⟩ := Literal.exists_parse?_eq h
  have hValue :=
    Literal.writtenExponent?_of_raises (l := ⟨negative, whole, fraction, written⟩) hRaises
  have hRange : -0x80000000 ≤ exponent ∧ exponent < 0x80000000 := hFits
  rw [if_pos hRange] at hValue
  refine ⟨written, ?_⟩
  simp only [readUnlimited, hParse, Literal.toDecimalUnlimited, hValue]

/-- Without the limit a decimal text stands for none if the place of the point can be computed, and
the value is out of range where the place is the right one. -/
theorem readUnlimited_eq_none_iff (h : DecimalText cs negative whole fraction exponent)
    (hFits : Fits32 exponent) :
    readUnlimited cs = .ok none ↔
      (Arithmetic.isChecked = true → Fits32 (wrap32 whole.length + exponent)) ∧
        (PlaceFits whole exponent →
          2 ^ 96 ≤ mantissaOf whole fraction exponent ∨ 28 < placesOf fraction exponent) := by
  obtain ⟨written, hRead⟩ := exists_readUnlimited_eq h hFits
  have hError : Literal.expand ⟨negative, whole, fraction, written⟩ exponent =
      .error .misplacedPoint ↔ _ := Literal.expand_eq_error_iff_of_isDigit h.isDigit
  have hSome (d : Decimal) : Literal.expand ⟨negative, whole, fraction, written⟩ exponent =
      .ok (some d) ↔ _ := expand_eq_some_iff h.isDigit h.nonempty hFits
  rw [eq_ok_none_iff, hRead, hError, not_and, not_not]
  have hRange : (2 ^ 96 ≤ mantissaOf whole fraction exponent ∨ 28 < placesOf fraction exponent) ↔
      ∀ d, ofParts? negative (mantissaOf whole fraction exponent) (placesOf fraction exponent) ≠
        some d := by
    rw [← ofParts?_eq_none_iff, Option.eq_none_iff_forall_ne_some]
  -- what remains is that no decimal is the one with these parts
  simp only [hSome, not_and, hRange, ne_eq]
  exact and_congr_right fun _ => forall_comm

/-- **Where the limit saves work only.** A decimal text whose exponent is over the limit is read as
no decimal. Without the limit it would be so too if the exponent is negative, if it leaves more than
28 places, or if the number becomes too large; and only then, as long as the place of the point fits
32 bits. At a place that does not fit, a build that checks its arithmetic would abort without the
limit, and any other build would come to no decimal. -/
theorem limit_saves_work_only_iff (h : DecimalText cs negative whole fraction exponent)
    (hFits : |exponent| < 2 ^ 31) (hLarge : 64 < |exponent|) :
    read cs = .ok none ∧
      (readUnlimited cs = read cs ↔
        (Arithmetic.isChecked = true → Fits32 (wrap32 whole.length + exponent)) ∧
          (PlaceFits whole exponent → exponent < 0 ∨ exponent + 28 < fraction.length ∨
            2 ^ 96 ≤ mantissaOf whole fraction exponent)) := by
  have hRead : read cs = .ok none := by
    -- the size of the least exponent is `2 ^ 31`, which the bound leaves out
    have hLeast : exponent ≠ -0x80000000 := by
      rintro rfl
      exact absurd hFits (by decide)
    rw [eq_ok_none_iff, read_eq_error_iff h]
    refine ⟨?_, fun d hd => ?_⟩
    · rintro ⟨-, hEq | ⟨hSize, -⟩⟩
      · exact hLeast hEq
      · exact absurd hSize hLarge.not_ge
    · exact absurd ((read_eq_some_iff h).1 hd).1.1 hLarge.not_ge
  refine ⟨hRead, ?_⟩
  rw [Int.abs_eq_natAbs] at hLarge hFits
  have hFits32 : Fits32 exponent := by
    unfold Fits32
    omega
  -- the limit refuses the text, so the two agree if the other one refuses it too
  rw [hRead, readUnlimited_eq_none_iff h hFits32, placesOf]
  refine and_congr_right fun _ => imp_congr_right fun _ => ?_
  omega

end Limit

/-- The place of the point can be too large to be computed. -/
example : readUnlimited "0e2147483647".toList = .error .misplacedPoint := by decide

/-- Zero is in range with every exponent. -/
theorem limit_refuses_zero :
    DecimalText "0e65".toList false ['0'] [] 65 ∧ |(65 : Int)| < 2 ^ 31 ∧ 64 < |(65 : Int)| ∧
      read "0e65".toList = .ok none ∧ readUnlimited "0e65".toList ≠ read "0e65".toList := by
  have hExponent : SpellsExponent 65 ['e', '6', '5'] :=
    @SpellsExponent.mark 'e' false [] ['6', '5'] (.inl rfl) .none (by decide)
      (List.all_eq_true.1 (by decide))
  have hText : DecimalText "0e65".toList false ['0'] [] 65 :=
    ⟨⟨[], [], ['e', '6', '5'], by decide, .none, .none, hExponent⟩,
      List.all_eq_true.1 (by decide), by decide⟩
  have hFits : |(65 : Int)| < 2 ^ 31 := by decide
  have hLarge : 64 < |(65 : Int)| := by decide
  have hPlace : PlaceFits ['0'] 65 := ⟨by decide, fun _ => by decide⟩
  obtain ⟨hRead, hSame⟩ := limit_saves_work_only_iff hText hFits hLarge
  refine ⟨hText, hFits, hLarge, hRead, fun hEq => ?_⟩
  exact absurd ((hSame.1 hEq).2 hPlace) (by decide)

end Decimal

end ValidatorGen.Number

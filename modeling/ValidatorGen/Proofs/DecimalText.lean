import ValidatorGen.Proofs.LiteralText
import ValidatorGen.Proofs.Totality
import Mathlib.Data.List.TakeWhile

/-!
# Decimal texts and what they stand for

A decimal text is a sign, digits, a point with more digits and an exponent. It is read in two steps:
the exponent is taken away by moving the point, with zeros in the places that come to lie between
the point and the digits; and what is left is read digit by digit. No value is computed on the way,
so it has to be shown that moving the point multiplies by the power of ten.

The place of the point is a number of 32 bits. `PlaceFits` says that it is computed without wrapping
around, which is so in every text of fewer than `2 ^ 31 - 64` characters; only in texts of some two
thousand million digits can it be otherwise. There the point comes to a place that is off by a
multiple of `2 ^ 32`, or a build that checks its arithmetic gives up. Neither makes a text stand for
a wrong number: the misplaced point leaves too many digits behind it for any decimal.

The grammar and the reader are related in both directions, one part of a text at a time, and the
expanded text is described by `PositionalText`, one lemma for each place where the point can come to
stand.

Main results:

* `Literal.exists_parse?_eq`, `Literal.decimalText_of_parse?` — the reader of the grammar accepts
  the decimal texts, and in ASCII no others;
* `Literal.expand_eq_ofParts?` — moving the point multiplies by the power of ten;
* `Decimal.read_eq_some_iff`, `Decimal.read_eq_error_iff` — what a text with known parts is read as;
* `Decimal.read_exact` — which texts stand for a decimal, and for which.
-/

namespace ValidatorGen.Number

/-! ## The grammar -/

/-- A sign in front of digits, which may be missing, and whether it is a minus. -/
inductive SpellsSign : Bool → List Char → Prop where
  | none : SpellsSign false []
  | plus : SpellsSign false ['+']
  | minus : SpellsSign true ['-']

/-- Signs are printed only where they are a minus. -/
theorem SpellsSign.printed (negative : Bool) :
    SpellsSign negative (if negative then ['-'] else []) := by
  cases negative
  · exact .none
  · exact .minus

/-- Digits after a point; no digits are written without a point. -/
inductive SpellsFraction : List Char → List Char → Prop where
  | none : SpellsFraction [] []
  | point {fraction : List Char} (nonempty : fraction ≠ []) :
      SpellsFraction fraction ('.' :: fraction)

/-- An exponent after its mark; zero may also be left out. -/
inductive SpellsExponent : Int → List Char → Prop where
  | none : SpellsExponent 0 []
  | mark {c : Char} {negative : Bool} {sign digits : List Char} (isMark : c = 'e' ∨ c = 'E')
      (signed : SpellsSign negative sign) (nonempty : digits ≠ [])
      (isDigit : ∀ d ∈ digits, d.isDigit = true) :
      SpellsExponent (if negative then -(Nat.ofDigitChars 10 digits 0 : Int)
        else Nat.ofDigitChars 10 digits 0) (c :: (sign ++ digits))

/-- Whether a text is a decimal text with this sign, these digits before and after the point, not
both missing, and this exponent. The parts are given as the relation holds of them, not computed, so
the relation says nothing about how the text is read. -/
structure DecimalText (cs : List Char) (negative : Bool) (whole fraction : List Char)
    (exponent : Int) : Prop where
  parts : ∃ sign fractionText exponentText,
    cs = sign ++ (whole ++ (fractionText ++ exponentText)) ∧ SpellsSign negative sign ∧
      SpellsFraction fraction fractionText ∧ SpellsExponent exponent exponentText
  isDigit : ∀ c ∈ whole ++ fraction, c.isDigit = true
  nonempty : whole ++ fraction ≠ []

namespace Literal

theorem valueOf_eq (digits : List Char) : valueOf digits = Nat.ofDigitChars 10 digits 0 := rfl

/-- Whether an exponent, given by its sign and digits if there is one, is this number. It relates
what the reader of the grammar keeps to the exponent that the text spells. -/
inductive Raises : Option (Bool × List Char) → Int → Prop where
  | none : Raises none 0
  | some {negative : Bool} {digits : List Char} (isDigit : ∀ d ∈ digits, d.isDigit = true) :
      Raises (some (negative, digits))
        (if negative then -(Nat.ofDigitChars 10 digits 0 : Int) else Nat.ofDigitChars 10 digits 0)

theorem writtenExponent?_of_raises {l : Literal} {exponent : Int} (h : Raises l.exponent exponent) :
    l.writtenExponent? =
      if -0x80000000 ≤ exponent ∧ exponent < 0x80000000 then some exponent else none := by
  obtain ⟨negative, whole, fraction, written⟩ := l
  cases h with
  | none => rfl
  | some hDigits =>
    have hAll := List.all_eq_true.2 hDigits
    simp only [writtenExponent?, hAll, true_and, valueOf_eq]

theorem natAbs_le_maxExponent_iff {exponent : Int} :
    exponent.natAbs ≤ maxExponent ↔ |exponent| ≤ 64 := by
  rw [Int.abs_eq_natAbs, maxExponent]
  omega

/-- The size of the least exponent does not fit. A build that does not check this takes the least
exponent itself for its size. -/
theorem settle_size_of_least [Arithmetic] : settle (-0x80000000 : Int).natAbs =
    if Arithmetic.isChecked = true then .error .misplacedPoint else .ok (-0x80000000) := by
  have hLarge : ¬ Fits32 (-0x80000000 : Int).natAbs := by decide
  have hWrap : wrap32 (-0x80000000 : Int).natAbs = -0x80000000 := by decide
  rw [settle, if_neg hLarge, hWrap]

/-- Of the exponents that are looked at none is so large that it would not fit. Where arithmetic is
not checked the least exponent passes for one of them, its size being below zero. -/
theorem exponentValue?_eq_some_iff [Arithmetic] {l : Literal} {exponent moderate : Int}
    (h : Raises l.exponent exponent) :
    l.exponentValue? = .ok (some moderate) ↔ moderate = exponent ∧
      (|exponent| ≤ 64 ∨ exponent = -0x80000000 ∧ Arithmetic.isChecked = false) := by
  rw [exponentValue?, writtenExponent?_of_raises h]
  by_cases hFits : -0x80000000 ≤ exponent ∧ exponent < 0x80000000
  · rw [if_pos hFits]
    dsimp only
    -- the least exponent is the only one that fits and whose size does not
    by_cases hLeast : exponent = -0x80000000
    · subst hLeast
      have hSmall : (-0x80000000 : Int) ≤ maxExponent := by decide
      have hNotModerate : ¬ |(-0x80000000 : Int)| ≤ 64 := by decide
      rw [settle_size_of_least]
      cases hChecked : Arithmetic.isChecked
      · simp only [Bool.false_eq_true, if_false, Except.map, if_pos hSmall, Except.ok.injEq,
          Option.some.injEq, hNotModerate, false_or, and_true]
        exact eq_comm
      · simp only [if_true, Except.map, reduceCtorEq, hNotModerate, and_false, or_false]
    · have hSize : Fits32 exponent.natAbs := by
        unfold Fits32
        omega
      rw [settle_of_fits32 hSize, ← natAbs_le_maxExponent_iff]
      simp only [Except.map, Except.ok.injEq, Option.ite_none_right_eq_some, Option.some.injEq,
        Int.ofNat_le, hLeast, false_and, or_false]
      exact ⟨fun ⟨hModerate, hSame⟩ => ⟨hSame.symm, hModerate⟩,
        fun ⟨hSame, hModerate⟩ => ⟨hModerate, hSame.symm⟩⟩
  · rw [if_neg hFits, Int.abs_eq_natAbs]
    simp only [reduceCtorEq, Except.ok.injEq, false_iff, not_and, not_or]
    omega

/-! ## Reading the grammar -/

theorem ne_sign_of_isDigit {c : Char} (h : c.isDigit = true) : c ≠ '-' ∧ c ≠ '+' := by
  constructor <;> rintro rfl <;> exact absurd h (by decide)

theorem takeSign_append {negative : Bool} {sign rest : List Char}
    (hSign : SpellsSign negative sign) (hRest : ∀ c ∈ rest.head?, c ≠ '-' ∧ c ≠ '+') :
    takeSign (sign ++ rest) = (negative, rest) := by
  cases hSign with
  | plus => rfl
  | minus => rfl
  | none =>
    rw [List.nil_append]
    unfold takeSign
    split
    · exact absurd rfl (hRest '-' rfl).1
    · exact absurd rfl (hRest '+' rfl).2
    · rfl

theorem takeFraction?_append {fraction fractionText rest : List Char}
    (hFraction : SpellsFraction fraction fractionText)
    (hDigits : ∀ c ∈ fraction, c.isDigit = true) (hRest : ∀ c ∈ rest.head?, c = 'e' ∨ c = 'E') :
    takeFraction? (fractionText ++ rest) = some (fraction, rest) := by
  cases hFraction with
  | none =>
    rw [List.nil_append]
    unfold takeFraction?
    split
    · exact absurd (hRest '.' rfl) (by decide)
    · rfl
  | point hNonempty =>
    -- the run of digits ends where the mark of an exponent stands, which is no digit
    have hRun : ∀ c ∈ fraction, takeFraction?.isDecimal c = true :=
      fun c hc => Text.isDecimalDigit_of_isDigit (hDigits c hc)
    have hStop : ∀ c ∈ rest.head?, takeFraction?.isDecimal c = false := by
      intro c hc
      rcases hRest c hc with rfl | rfl <;> rfl
    obtain ⟨hTake, hDrop⟩ := span_append_of_stop hRun hStop
    rw [List.cons_append, takeFraction?, List.span_eq_takeWhile_dropWhile, hTake, hDrop]
    split
    · next hNone => exact absurd (Prod.mk.inj hNone).1 hNonempty
    · rfl

theorem exists_takeExponent?_eq {exponent : Int} {text : List Char}
    (h : SpellsExponent exponent text) :
    ∃ written, takeExponent? text = some written ∧ Raises written exponent := by
  cases h with
  | none => exact ⟨none, rfl, .none⟩
  | @mark c negative sign digits hMark hSign hNonempty hDigits =>
    refine ⟨some (negative, digits), ?_, .some hDigits⟩
    -- a digit follows the sign, so no second sign is taken
    have hHead : ∀ d ∈ digits.head?, d ≠ '-' ∧ d ≠ '+' :=
      fun d hd => ne_sign_of_isDigit (hDigits d (List.mem_of_mem_head? hd))
    have hAll : digits.all Text.isDecimalDigit = true :=
      List.all_eq_true.2 fun d hd => Text.isDecimalDigit_of_isDigit (hDigits d hd)
    rw [takeExponent?, if_pos hMark, takeSign_append hSign hHead]
    exact if_pos ⟨hNonempty, hAll⟩

/-- **The decimal texts are read as their parts.** -/
theorem exists_parse?_eq {cs : List Char} {negative : Bool} {whole fraction : List Char}
    {exponent : Int} (h : DecimalText cs negative whole fraction exponent) :
    ∃ written, parse? cs = some ⟨negative, whole, fraction, written⟩ ∧ Raises written exponent := by
  obtain ⟨⟨sign, fractionText, exponentText, rfl, hSign, hFraction, hExponent⟩, hDigits, hSome⟩ := h
  obtain ⟨written, hWritten, hRaises⟩ := exists_takeExponent?_eq hExponent
  refine ⟨written, ?_, hRaises⟩
  have hWholeDigits : ∀ c ∈ whole, c.isDigit = true :=
    fun c hc => hDigits c (List.mem_append_left _ hc)
  have hFractionDigits : ∀ c ∈ fraction, c.isDigit = true :=
    fun c hc => hDigits c (List.mem_append_right _ hc)
  -- each part ends where the next one starts
  have hMark : ∀ c ∈ exponentText.head?, c = 'e' ∨ c = 'E' := by
    cases hExponent with
    | none => simp
    | mark isMark _ _ _ =>
      intro c hc
      rwa [← Option.some.inj hc]
  have hPoint : ∀ c ∈ (fractionText ++ exponentText).head?, c = '.' ∨ c = 'e' ∨ c = 'E' := by
    cases hFraction with
    | none => exact fun c hc => .inr (hMark c hc)
    | point _ => exact fun c hc => .inl (Option.some.inj hc).symm
  have hStop : ∀ c ∈ (fractionText ++ exponentText).head?, Text.isDecimalDigit c = false := by
    intro c hc
    rcases hPoint c hc with rfl | rfl | rfl <;> rfl
  have hHead : ∀ c ∈ (whole ++ (fractionText ++ exponentText)).head?, c ≠ '-' ∧ c ≠ '+' := by
    intro c hc
    cases whole with
    | nil => rcases hPoint c hc with rfl | rfl | rfl <;> decide
    | cons d whole =>
      obtain rfl := Option.some.inj hc
      exact ne_sign_of_isDigit (hWholeDigits d List.mem_cons_self)
  obtain ⟨hTake, hDrop⟩ := span_append_of_stop
    (fun c hc => Text.isDecimalDigit_of_isDigit (hWholeDigits c hc)) hStop
  -- the reader refuses a text without any digit, and so does the grammar
  have hNotBoth : ¬ (whole = [] ∧ fraction = []) := by
    rintro ⟨rfl, rfl⟩
    exact hSome rfl
  simp only [parse?, takeSign_append hSign hHead, List.span_eq_takeWhile_dropWhile, hTake, hDrop,
    takeFraction?_append hFraction hFractionDigits hMark, hWritten, Option.bind_eq_bind,
    Option.bind_some, if_neg hNotBoth]

theorem utf8Size_of_isDigit {c : Char} (h : c.isDigit = true) : c.utf8Size = 1 := by
  simp only [Char.isDigit, Bool.and_eq_true, decide_eq_true_eq] at h
  exact Char.utf8Size_eq_one_iff.2 (UInt32.le_trans h.2 (by decide))

theorem byteLength_of_isDigit {cs : List Char} (h : ∀ c ∈ cs, c.isDigit = true) :
    byteLength cs = cs.length := by
  induction cs with
  | nil => rfl
  | cons c cs ih =>
    rw [byteLength_cons, ih fun d hd => h d (List.mem_cons_of_mem c hd),
      utf8Size_of_isDigit (h c List.mem_cons_self), List.length_cons, Nat.add_comm]

/-- No place is inside a digit of one byte. -/
theorem not_isInside_of_isDigit {cs : List Char} (h : ∀ c ∈ cs, c.isDigit = true) {place : Nat} :
    ¬ IsInside cs place := by
  rintro ⟨before, c, after, rfl, hLow, hHigh⟩
  rw [utf8Size_of_isDigit (h c (by simp))] at hHigh
  omega

/-- Digits of one byte each are divided anywhere. -/
theorem splitAt?_of_isDigit {cs : List Char} (h : ∀ c ∈ cs, c.isDigit = true) {place : Nat}
    (hPlace : place ≤ cs.length) : splitAt? cs place = some (cs.take place, cs.drop place) := by
  induction cs generalizing place with
  | nil =>
    obtain rfl : place = 0 := Nat.le_zero.1 hPlace
    rfl
  | cons c cs ih =>
    cases place with
    | zero => rfl
    | succ n =>
      -- the first digit takes one byte of the place
      have hSize := utf8Size_of_isDigit (h c List.mem_cons_self)
      have hRest := ih (fun d hd => h d (List.mem_cons_of_mem c hd)) (Nat.le_of_succ_le_succ hPlace)
      rw [splitAt?, hSize, if_pos (Nat.le_add_left 1 n), Nat.add_sub_cancel, hRest]
      rfl

end Literal

/-- Whether a text is digits that make up a number, with so many of them behind a point. At least
one stands before it, and there is no point if none stands behind it. This is what the expansion
produces and what the last step reads. -/
def PositionalText (text : List Char) (value places : Nat) : Prop :=
  ∃ before after, text = before ++ (if after = [] then [] else '.' :: after) ∧ before ≠ [] ∧
    (∀ c ∈ before ++ after, c.isDigit = true) ∧ after.length = places ∧
    Nat.ofDigitChars 10 (before ++ after) 0 = value

namespace PositionalText

variable {digits : List Char}

theorem isDigit_of_mem_zeros {n : Nat} {c : Char} (h : c ∈ List.replicate n '0') :
    c.isDigit = true := by
  rw [(List.mem_replicate.1 h).2]
  rfl

/-- Zeros stand between the point and the first digit. -/
theorem of_point_before (hDigits : ∀ c ∈ digits, c.isDigit = true) (hSome : digits ≠ []) (n : Nat) :
    PositionalText ('0' :: '.' :: (List.replicate n '0' ++ digits))
      (Nat.ofDigitChars 10 digits 0) (n + digits.length) := by
  refine ⟨['0'], List.replicate n '0' ++ digits, ?_, List.cons_ne_nil _ _, ?_, ?_, ?_⟩
  · rw [if_neg fun hNone => hSome (List.append_eq_nil_iff.1 hNone).2]
    rfl
  · intro c hc
    rcases List.mem_append.1 hc with hc | hc
    · rw [List.mem_singleton.1 hc]
      rfl
    · exact (List.mem_append.1 hc).elim isDigit_of_mem_zeros (hDigits c)
  · rw [List.length_append, List.length_replicate]
  · rw [← List.append_assoc, List.singleton_append, ← List.replicate_succ, Nat.ofDigitChars_append,
      Nat.ofDigitChars_replicate_zero, Nat.mul_zero]

/-- Zeros stand between the last digit and the point. -/
theorem of_point_after (hDigits : ∀ c ∈ digits, c.isDigit = true) (hSome : digits ≠ []) (n : Nat) :
    PositionalText (digits ++ List.replicate n '0') (Nat.ofDigitChars 10 digits 0 * 10 ^ n) 0 := by
  refine ⟨digits ++ List.replicate n '0', [], ?_, ?_, ?_, List.length_nil, ?_⟩
  · rw [if_pos rfl, List.append_nil]
  · exact fun hNone => hSome (List.append_eq_nil_iff.1 hNone).1
  · intro c hc
    rw [List.append_nil] at hc
    exact (List.mem_append.1 hc).elim (hDigits c) isDigit_of_mem_zeros
  · rw [List.append_nil, Nat.ofDigitChars_append, Nat.ofDigitChars_replicate_zero, Nat.mul_comm]

/-- The point stands among the digits. -/
theorem of_point_among (hDigits : ∀ c ∈ digits, c.isDigit = true) {place : Nat} (hFirst : 0 < place)
    (hLast : place < digits.length) :
    PositionalText (digits.take place ++ '.' :: digits.drop place)
      (Nat.ofDigitChars 10 digits 0) (digits.length - place) := by
  refine ⟨digits.take place, digits.drop place, ?_, ?_, ?_, List.length_drop, ?_⟩
  · rw [if_neg fun hNone => ?_]
    exact absurd (List.drop_eq_nil_iff.1 hNone) (by omega)
  · intro hNone
    have hLength := congrArg List.length hNone
    rw [List.length_take, List.length_nil] at hLength
    omega
  · rw [List.take_append_drop]
    exact hDigits
  · rw [List.take_append_drop]

/-- **Positional text is read as its digits**, with as many places as stand behind the point. -/
theorem ofPositional?_eq {text sign : List Char} {negative : Bool} {value places : Nat}
    (h : PositionalText text value places) (hSign : SpellsSign negative sign) :
    Decimal.ofPositional? (sign ++ text) = Decimal.ofParts? negative value places := by
  obtain ⟨before, after, rfl, hBefore, hDigits, rfl, rfl⟩ := h
  have hBeforeDigits : ∀ c ∈ before, c.isDigit = true :=
    fun c hc => hDigits c (List.mem_append_left _ hc)
  -- The text after the sign starts with a digit, so the reader takes exactly the sign that is
  -- written, and the digits in front end at the point or with the text.
  have hHead : ∀ c ∈ (before ++ if after = [] then [] else '.' :: after).head?,
      c ≠ '-' ∧ c ≠ '+' := by
    intro c hc
    have hDigit : (some c).all Char.isDigit = true := by
      rw [← Option.mem_def.1 hc]
      exact head?_all_isDigit hBefore hBeforeDigits
    exact Literal.ne_sign_of_isDigit hDigit
  have hStop : ∀ c ∈ (if after = [] then [] else '.' :: after).head?, c.isDigit = false := by
    intro c hc
    split at hc
    · cases hc
    · rw [← Option.some.inj hc]
      rfl
  obtain ⟨hTake, hDrop⟩ := span_append_of_stop hBeforeDigits hStop
  rw [Decimal.ofPositional?, Literal.takeSign_append hSign hHead]
  dsimp only
  rw [List.span_eq_takeWhile_dropWhile, hTake, hDrop]
  by_cases hAfter : after = []
  · simp [hAfter, hBefore, Literal.valueOf_eq]
  · have hAll : after.all Char.isDigit = true :=
      List.all_eq_true.2 fun c hc => hDigits c (List.mem_append_right _ hc)
    simp [hAfter, hBefore, hAll, Literal.valueOf_eq]

end PositionalText

/-- The digits of a decimal text as a whole number, times the power of ten by which the exponent
takes the point past the last one. An exponent that leaves digits behind the point does not change
it. -/
def mantissaOf (whole fraction : List Char) (exponent : Int) : Nat :=
  Nat.ofDigitChars 10 (whole ++ fraction) 0 * 10 ^ (exponent - fraction.length).toNat

/-- How many digits of a decimal text the exponent leaves behind the point. -/
def placesOf (fraction : List Char) (exponent : Int) : Nat :=
  (fraction.length - exponent).toNat

namespace Literal

/-- **The digits with the point at a place.** There are as many places as there are digits behind
the point; where the point is past the last digit, the number grows by powers of ten. -/
theorem exists_placePoint_eq {l : Literal} (hDigits : ∀ c ∈ l.whole ++ l.fraction, c.isDigit = true)
    (hSome : l.whole ++ l.fraction ≠ []) (point : Int) :
    ∃ text, l.placePoint point = .ok text ∧
      PositionalText text
        (Nat.ofDigitChars 10 (l.whole ++ l.fraction) 0 *
          10 ^ (point - (l.whole ++ l.fraction).length).toNat)
        ((l.whole ++ l.fraction).length - point).toNat := by
  unfold placePoint
  dsimp only
  rw [byteLength_of_isDigit hDigits]
  generalize l.whole ++ l.fraction = digits at hDigits hSome ⊢
  -- The three cases are those of the code: the point before, after and among the digits. In each
  -- the power of ten and the number of places are first written without signs.
  by_cases hBefore : point ≤ 0
  · rw [if_pos hBefore]
    have hPower : (point - digits.length).toNat = 0 := by omega
    have hPlaces : (digits.length - point).toNat = point.natAbs + digits.length := by omega
    rw [hPower, hPlaces, Nat.pow_zero, Nat.mul_one]
    exact ⟨_, rfl, .of_point_before hDigits hSome _⟩
  · rw [if_neg hBefore]
    by_cases hAfter : (digits.length : Int) ≤ point
    · rw [if_pos hAfter]
      have hPower : (point - digits.length).toNat = point.toNat - digits.length := by omega
      have hPlaces : (digits.length - point).toNat = 0 := by omega
      rw [hPower, hPlaces]
      exact ⟨_, rfl, .of_point_after hDigits hSome _⟩
    -- ASCII digits have one byte each, so the split is never inside one.
    · rw [if_neg hAfter, splitAt?_of_isDigit hDigits (by omega)]
      have hPower : (point - digits.length).toNat = 0 := by omega
      have hPlaces : (digits.length - point).toNat = digits.length - point.toNat := by omega
      rw [hPower, hPlaces, Nat.pow_zero, Nat.mul_one]
      exact ⟨_, rfl, .of_point_among hDigits (by omega) (by omega)⟩

variable [Arithmetic]

/-- The decimal that a literal stands for, when the point comes to a place. -/
theorem expand_of_point {l : Literal} (hDigits : ∀ c ∈ l.whole ++ l.fraction, c.isDigit = true)
    (hSome : l.whole ++ l.fraction ≠ []) {exponent point : Int}
    (hPoint : l.point exponent = .ok point) :
    l.expand exponent = .ok (Decimal.ofParts? l.negative
      (Nat.ofDigitChars 10 (l.whole ++ l.fraction) 0 *
        10 ^ (point - (l.whole ++ l.fraction).length).toNat)
      ((l.whole ++ l.fraction).length - point).toNat) := by
  obtain ⟨text, hText, hPositional⟩ := exists_placePoint_eq hDigits hSome point
  have hPlaced : l.positional exponent = .ok text := by
    rw [positional, hPoint]
    exact hText
  rw [expand, hPlaced, ← hPositional.ofPositional?_eq (.printed l.negative)]
  rfl

end Literal

/-- Whether the place to which an exponent moves the point, counted from the first digit, can be
computed with 32 bits. A build that checks its arithmetic needs a count of the digits before the
point that fits as well. Only texts with about `2 ^ 31` digits before the point, or exponents of
that size, fail this (`Decimal.placeFits_of_length_lt`). -/
structure PlaceFits [Arithmetic] (whole : List Char) (exponent : Int) : Prop where
  sum : whole.length + exponent < 2 ^ 31
  count : Arithmetic.isChecked = true → whole.length < 2 ^ 31

namespace Literal

variable [Arithmetic] {l : Literal} {exponent : Int}

/-- The place of the point is where it should be exactly if it can be computed with 32 bits. -/
theorem point_eq_iff (hDigits : ∀ c ∈ l.whole, c.isDigit = true) (hFits : Fits32 exponent) :
    l.point exponent = .ok (l.whole.length + exponent) ↔ PlaceFits l.whole exponent := by
  rw [point, byteLength_of_isDigit hDigits]
  generalize l.whole = whole
  have hParts : PlaceFits whole exponent ↔ (whole.length : Int) + exponent < 2 ^ 31 ∧
      (Arithmetic.isChecked = true → (whole.length : Int) < 2 ^ 31) := by
    constructor
    · rintro ⟨hSum, hCount⟩
      exact ⟨hSum, fun hChecked => by exact_mod_cast hCount hChecked⟩
    · rintro ⟨hSum, hCount⟩
      exact ⟨hSum, fun hChecked => by exact_mod_cast hCount hChecked⟩
  rw [hParts]
  unfold Fits32 at hFits
  -- with and without the check, the sum is the right place or at least `2 ^ 32` away from it
  unfold settle Fits32 wrap32
  cases Arithmetic.isChecked
  · simp only [Bool.false_eq_true, if_false, false_implies, and_true]
    split <;> simp only [Except.ok.injEq] <;> omega
  · simp only [if_true, forall_const]
    split
    · simp only [Except.ok.injEq]
      omega
    · simp only [reduceCtorEq, false_iff]
      omega

/-- **Moving the point multiplies by the power of ten**, if its place fits 32 bits. The places
behind it are those there were, less the exponent. -/
theorem expand_eq_ofParts? (hDigits : ∀ c ∈ l.whole ++ l.fraction, c.isDigit = true)
    (hSome : l.whole ++ l.fraction ≠ []) (hFits : Fits32 exponent)
    (hPlace : PlaceFits l.whole exponent) :
    l.expand exponent = .ok (Decimal.ofParts? l.negative
      (mantissaOf l.whole l.fraction exponent) (placesOf l.fraction exponent)) := by
  have hPoint := (point_eq_iff (fun c hc => hDigits c (List.mem_append_left _ hc)) hFits).2 hPlace
  -- the digits before the point cancel out: only the exponent and the fraction count
  have hPower : (l.whole.length + exponent - (l.whole ++ l.fraction).length : Int) =
      exponent - l.fraction.length := by
    rw [List.length_append]
    omega
  have hPlaces : ((l.whole ++ l.fraction).length - (l.whole.length + exponent) : Int) =
      l.fraction.length - exponent := by
    rw [List.length_append]
    omega
  rw [expand_of_point hDigits hSome hPoint, hPower, hPlaces, mantissaOf, placesOf]

/-- A decimal text in ASCII cannot be expanded if the place of the point cannot be computed. -/
theorem expand_eq_error_iff_of_isDigit (hDigits : ∀ c ∈ l.whole ++ l.fraction, c.isDigit = true) :
    l.expand exponent = .error .misplacedPoint ↔
      Arithmetic.isChecked = true ∧ ¬ Fits32 (wrap32 l.whole.length + exponent) := by
  have hWhole := byteLength_of_isDigit fun c hc => hDigits c (List.mem_append_left _ hc)
  rw [expand_eq_error_iff, hWhole]
  simp only [not_isInside_of_isDigit hDigits, and_false, exists_false, or_false]

end Literal

/-! ## Reading decimals -/

namespace Decimal

theorem ofParts?_eq_some_iff {negative : Bool} {mantissa scale : Nat} {d : Decimal} :
    ofParts? negative mantissa scale = some d ↔ mantissa < 2 ^ 96 ∧ scale ≤ 28 ∧
      d.mantissa = mantissa ∧ d.scale = scale ∧ d.negative = (negative && mantissa ≠ 0) := by
  unfold ofParts?
  constructor
  · intro h
    split at h
    · next hRange =>
      obtain rfl := Option.some.inj h
      exact ⟨hRange.1, hRange.2, rfl, rfl, rfl⟩
    · cases h
  · obtain ⟨dNegative, dMantissa, dScale, -, -, -⟩ := d
    rintro ⟨hMantissa, hScale, hSameMantissa, hSameScale, hNegative⟩
    dsimp only at hSameMantissa hSameScale hNegative
    subst hSameMantissa hSameScale hNegative
    exact dif_pos ⟨hMantissa, hScale⟩

theorem fits32_of_moderate {exponent : Int} (h : |exponent| ≤ 64) : Fits32 exponent := by
  rw [Int.abs_eq_natAbs] at h
  unfold Fits32
  omega

section Reading

variable [Arithmetic] {cs whole fraction : List Char} {negative : Bool} {exponent : Int}

/-- Where a decimal text stands for a decimal, the point has come to its right place: at any other
place, which is off by a multiple of `2 ^ 32`, too many digits are behind it. -/
theorem expand_eq_some_iff {l : Literal} (hDigits : ∀ c ∈ l.whole ++ l.fraction, c.isDigit = true)
    (hSome : l.whole ++ l.fraction ≠ []) (hFits : Fits32 exponent) {d : Decimal} :
    l.expand exponent = .ok (some d) ↔ PlaceFits l.whole exponent ∧
      ofParts? l.negative (mantissaOf l.whole l.fraction exponent) (placesOf l.fraction exponent) =
        some d := by
  have hWhole : ∀ c ∈ l.whole, c.isDigit = true := fun c hc => hDigits c (List.mem_append_left _ hc)
  constructor
  · intro h
    by_cases hPlace : PlaceFits l.whole exponent
    · rw [Literal.expand_eq_ofParts? hDigits hSome hFits hPlace] at h
      exact ⟨hPlace, Except.ok.inj h⟩
    · exfalso
      cases hPoint : l.point exponent with
      | error abort =>
        rw [Literal.expand, Literal.positional, hPoint] at h
        cases h
      | ok point =>
        obtain ⟨hFitsPoint, k, hCongruent⟩ := Literal.congruent_of_point hPoint
        -- the place is congruent to the right one and not equal to it, so it is before the first
        -- digit and leaves all digits and many zeros behind the point
        have hOff : point ≠ l.whole.length + exponent := by
          rintro rfl
          exact hPlace ((Literal.point_eq_iff hWhole hFits).1 hPoint)
        rw [Literal.expand_of_point hDigits hSome hPoint, Except.ok.injEq,
          ofParts?_eq_some_iff] at h
        have hPlaces := h.2.1
        rw [Literal.byteLength_of_isDigit hWhole] at hCongruent
        rw [List.length_append] at hPlaces
        unfold Fits32 at hFits hFitsPoint
        omega
  · rintro ⟨hPlace, hParts⟩
    rw [Literal.expand_eq_ofParts? hDigits hSome hFits hPlace, hParts]

/-- What is read from a decimal text whose parts are known. -/
theorem read_eq_some_iff (h : DecimalText cs negative whole fraction exponent) {d : Decimal} :
    read cs = .ok (some d) ↔
      (|exponent| ≤ 64 ∧ mantissaOf whole fraction exponent < 2 ^ 96 ∧
        placesOf fraction exponent ≤ 28 ∧ PlaceFits whole exponent) ∧
      d.mantissa = mantissaOf whole fraction exponent ∧ d.scale = placesOf fraction exponent ∧
        (d.negative = true ↔ negative = true ∧ d.mantissa ≠ 0) := by
  obtain ⟨written, hParse, hRaises⟩ := Literal.exists_parse?_eq h
  have hExpand (hFits : Fits32 exponent) :
      Literal.expand ⟨negative, whole, fraction, written⟩ exponent = .ok (some d) ↔ _ :=
    expand_eq_some_iff h.isDigit h.nonempty hFits
  have hRead : read cs = .ok (some d) ↔ |exponent| ≤ 64 ∧ PlaceFits whole exponent ∧
      ofParts? negative (mantissaOf whole fraction exponent) (placesOf fraction exponent) =
        some d := by
    simp only [read, hParse, Literal.toDecimal, except_bind_eq_ok_iff]
    constructor
    · rintro ⟨_ | moderate, hModerate, hSome⟩
      · cases hSome
      · obtain ⟨rfl, hSize | ⟨rfl, -⟩⟩ := (Literal.exponentValue?_eq_some_iff hRaises).1 hModerate
        · exact ⟨hSize, (hExpand (fits32_of_moderate hSize)).1 hSome⟩
        · -- the least exponent leaves too many places, so it does not matter that it is looked at
          have hParts := ((hExpand (by decide)).1 hSome).2
          have hPlaces := (ofParts?_eq_some_iff.1 hParts).2.1
          unfold placesOf at hPlaces
          omega
    · rintro ⟨hSize, hParts⟩
      exact ⟨some exponent, (Literal.exponentValue?_eq_some_iff hRaises).2 ⟨rfl, .inl hSize⟩,
        (hExpand (fits32_of_moderate hSize)).2 hParts⟩
  rw [hRead, ofParts?_eq_some_iff]
  constructor
  · rintro ⟨hExponent, hPlace, hMantissa, hScale, hSameMantissa, hSameScale, hNegative⟩
    refine ⟨⟨hExponent, hMantissa, hScale, hPlace⟩, hSameMantissa, hSameScale, ?_⟩
    rw [hNegative, hSameMantissa]
    simp
  · rintro ⟨⟨hExponent, hMantissa, hScale, hPlace⟩, hSameMantissa, hSameScale, hNegative⟩
    refine ⟨hExponent, hPlace, hMantissa, hScale, hSameMantissa, hSameScale,
      Bool.eq_iff_iff.2 ?_⟩
    rw [hNegative, hSameMantissa]
    simp

/-- In texts that are not extremely long the place of the point always fits. -/
theorem placeFits_of_length_lt (h : DecimalText cs negative whole fraction exponent)
    (hShort : cs.length + 64 < 2 ^ 31) (hSize : |exponent| ≤ 64) : PlaceFits whole exponent := by
  have hWhole : whole.length ≤ cs.length := by
    obtain ⟨⟨sign, fractionText, exponentText, rfl, -, -, -⟩, -, -⟩ := h
    simp only [List.length_append]
    omega
  rw [Int.abs_eq_natAbs] at hSize
  exact ⟨by omega, fun _ => by omega⟩

/-- What a decimal text whose parts are known aborts for. -/
theorem read_eq_error_iff (h : DecimalText cs negative whole fraction exponent) :
    read cs = .error .misplacedPoint ↔ Arithmetic.isChecked = true ∧
      (exponent = -0x80000000 ∨
        |exponent| ≤ 64 ∧ ¬ Fits32 (wrap32 whole.length + exponent)) := by
  obtain ⟨written, hParse, hRaises⟩ := Literal.exists_parse?_eq h
  have hWhole : Literal.byteLength whole = whole.length :=
    Literal.byteLength_of_isDigit fun c hc => h.isDigit c (List.mem_append_left _ hc)
  have hModerate (moderate : Int) : Literal.exponentValue? ⟨negative, whole, fraction, written⟩ =
      .ok (some moderate) ↔ _ := Literal.exponentValue?_eq_some_iff hRaises
  have hWritten := Literal.writtenExponent?_of_raises
    (l := ⟨negative, whole, fraction, written⟩) hRaises
  simp only [read, hParse, Literal.toDecimal_eq_error_iff]
  constructor
  · rintro (⟨hChecked, hLeast⟩ | ⟨place, hChecked, hSize, hLarge⟩ | ⟨_, _, _, _, _, _, hInside⟩)
    · rw [hWritten, Option.ite_none_right_eq_some, Option.some.injEq] at hLeast
      exact ⟨hChecked, .inl hLeast.2⟩
    -- An exponent that got past the filter is small, or the least one in an unchecked build; in the
    -- second case no sum is checked either.
    · obtain ⟨rfl, hSize | ⟨-, hUnchecked⟩⟩ := (hModerate place).1 hSize
      · rw [hWhole] at hLarge
        exact ⟨hChecked, .inr ⟨hSize, hLarge⟩⟩
      · rw [hChecked] at hUnchecked
        cases hUnchecked
    · exact absurd hInside (Literal.not_isInside_of_isDigit h.isDigit)
  · rintro ⟨hChecked, rfl | ⟨hSize, hLarge⟩⟩
    · exact .exponent hChecked (hWritten.trans (if_pos (by decide)))
    · refine .place exponent hChecked ((hModerate exponent).2 ⟨rfl, .inl hSize⟩) ?_
      rw [hWhole]
      exact hLarge

end Reading

end Decimal

end ValidatorGen.Number

import ValidatorGen.Proofs.DecimalText
import ValidatorGen.Proofs.DocumentPrefix

/-!
# Literals read back

A literal without its suffix is a text that can be given as the value of an argument again: the
literal of an integer as a JSON number, the literal of a decimal as a string. Read as an operand of
the same kind it is the operand it was written from, with the places of a decimal and all.

For integers this is about the number reader of JSON, which takes at most 64 bits for an integer;
every integer kind fits. For decimals it is about the reader of decimal texts with an exponent of
zero, so the point stays where it was written, and the text is far too short for the place of the
point to matter.

Main results:

* `Json.parse_integerChars` — the digits of an integer are JSON text for it;
* `Decimal.read_toChars` — the text of a decimal is read as the decimal;
* `Operand.literals_read_back` — the literals of all integers and decimals.
-/

namespace ValidatorGen

/-! ## Integers in JSON text -/

/-- The digits of a number that is not zero do not start with a zero. -/
theorem head?_toDigits_ne_zero {n : Nat} (h : n ≠ 0) :
    ∀ c ∈ (Nat.toDigits 10 n).head?, c ≠ '0' := by
  induction n using Nat.strongRecOn with
  | ind n ih =>
    have hDigit : ∀ d < 10, d ≠ 0 → Nat.digitChar d ≠ '0' := by decide
    by_cases hSmall : n < 10
    · rw [Nat.toDigits_of_lt_base hSmall]
      rintro c hc
      rw [← Option.some.inj hc]
      exact hDigit n hSmall h
    · -- the last digit is put behind the others
      have hSplit : Nat.toDigits 10 n = Nat.toDigits 10 (n / 10) ++ Nat.toDigits 10 (n % 10) := by
        rw [Nat.toDigits_append_toDigits (by decide) (by omega) (Nat.mod_lt n (by decide)),
          Nat.div_add_mod]
      rw [hSplit, List.head?_append_of_ne_nil _ Nat.toDigits_ne_nil]
      exact ih (n / 10) (by omega) (by omega)

/-- The digits of a number start with a digit. -/
theorem exists_toDigits_eq_cons (n : Nat) : ∃ x rest,
    Nat.toDigits 10 n = x :: rest ∧ x.isDigit = true := by
  obtain ⟨x, rest, hCons⟩ :=
    List.exists_cons_of_ne_nil (Nat.toDigits_ne_nil : Nat.toDigits 10 n ≠ [])
  exact ⟨x, rest, hCons, isDigit_of_mem_toDigits_ten (hCons ▸ List.mem_cons_self)⟩

namespace Json

/-- A number that fits is not cut off. -/
theorem accumulate_of_lt {n : Nat} {digits : List Nat}
    (h : digits.foldl (fun n d => 10 * n + d) n < 0x10000000000000000) :
    accumulate n digits = (digits.foldl (fun n d => 10 * n + d) n, []) := by
  -- the number never shrinks, so none of those on the way is too large if the last one is not
  have hGrows : ∀ (digits : List Nat) n, n ≤ digits.foldl (fun n d => 10 * n + d) n := by
    intro digits
    induction digits with
    | nil => exact fun n => Nat.le_refl n
    | cons d digits ih =>
      intro n
      have hRest := ih (10 * n + d)
      rw [List.foldl_cons]
      omega
  induction digits generalizing n with
  | nil => rfl
  | cons d digits ih =>
    rw [List.foldl_cons] at h ⊢
    have hFits := Nat.lt_of_le_of_lt (hGrows digits (10 * n + d)) h
    rw [accumulate, if_pos hFits, ih h]

theorem takeDigits_of_isDigit {digits : List Char} (h : ∀ c ∈ digits, c.isDigit = true)
    (place : Position) : takeDigits ⟨digits, place⟩ =
      (digits.map fun c => c.toNat - '0'.toNat, ⟨[], digits.foldl Position.overChar place⟩) := by
  have hNone : ∀ c ∈ ([] : List Char).head?, c.isDigit = false := by simp
  obtain ⟨hTake, hDrop⟩ := span_append_of_stop h hNone
  rw [List.append_nil] at hTake hDrop
  simp only [takeDigits, Cursor.takeWhile, List.span_eq_takeWhile_dropWhile, hTake, hDrop,
    Cursor.past]

/-- The digits of a natural number are read as a number without fraction and exponent. -/
theorem readUnsigned_toDigits (negative : Bool) {n : Nat} (h : n < 0x10000000000000000)
    (place : Position) : ∃ after : Cursor, after.rest = [] ∧
      readUnsigned negative ⟨Nat.toDigits 10 n, place⟩ = wholeNumber negative n after := by
  have hDigits : ∀ c ∈ Nat.toDigits 10 n, c.isDigit = true :=
    fun _ hc => isDigit_of_mem_toDigits_ten hc
  have hValue : ((Nat.toDigits 10 n).map fun c => c.toNat - '0'.toNat).foldl
      (fun n d => 10 * n + d) 0 = n := by
    rw [List.foldl_map]
    exact Nat.ofDigitChars_ten_toDigits
  have hWhole := accumulate_of_lt (hValue.symm ▸ h)
  rw [hValue] at hWhole
  refine ⟨⟨[], (Nat.toDigits 10 n).foldl Position.overChar place⟩, rfl, ?_⟩
  rw [readUnsigned, takeDigits_of_isDigit hDigits]
  dsimp only
  split
  · next hNone => exact absurd (List.map_eq_nil_iff.1 hNone) Nat.toDigits_ne_nil
  · next first second rest hZero =>
    -- a leading zero would have to stand alone
    obtain ⟨c, cs, hCons, hFirst, hRest⟩ := List.map_eq_cons_iff.1 hZero
    exfalso
    by_cases hValue : n = 0
    · rw [hValue] at hCons
      obtain rfl := (List.cons.inj hCons).2
      exact List.cons_ne_nil _ _ hRest.symm
    · have hDigit : c.isDigit = true := hDigits c (hCons ▸ List.mem_cons_self)
      refine head?_toDigits_ne_zero hValue c (by rw [hCons]; rfl) (Char.toNat_inj.1 ?_)
      have hBounds := Char.isDigit_iff_toNat.1 hDigit
      have hCode : '0'.toNat = 48 := rfl
      omega
  · rw [hWhole]
    rfl

/-- A magnitude that is read with its sign gives the integer. -/
theorem wholeNumber_natAbs {value : Int}
    (h : -0x8000000000000000 ≤ value ∧ value < 0x10000000000000000) (c : Cursor) :
    wholeNumber (decide (value < 0)) value.natAbs c = .ok (.integer value h, c) := by
  by_cases hNegative : value < 0
  · have hBack : -(value.natAbs : Int) = value := by omega
    rw [decide_eq_true hNegative, wholeNumber, dif_neg (by simp),
      dif_pos ⟨rfl, by omega, by omega⟩]
    simp only [hBack]
  · have hBack : (value.natAbs : Int) = value := by omega
    rw [decide_eq_false hNegative, wholeNumber, dif_pos ⟨rfl, by omega⟩]
    simp only [hBack]

/-- An integer is read by its sign, if it has one, and its magnitude. -/
theorem readNumber_integerChars_eq (value : Int) (place : Position) : ∃ digitsPlace,
    readNumber ⟨Operand.integerChars value, place⟩ =
      readUnsigned (decide (value < 0)) ⟨Nat.toDigits 10 value.natAbs, digitsPlace⟩ := by
  by_cases hNegative : value < 0
  · rw [Operand.integerChars, if_pos hNegative, decide_eq_true hNegative]
    exact ⟨place.overChar '-', rfl⟩
  · obtain ⟨x, rest, hCons, hDigit⟩ := exists_toDigits_eq_cons value.natAbs
    have hNone : Cursor.accept? '-' ⟨x :: rest, place⟩ = none :=
      if_neg (Number.Literal.ne_sign_of_isDigit hDigit).1
    rw [Operand.integerChars, if_neg hNegative, decide_eq_false hNegative, List.nil_append, hCons,
      readNumber, hNone]
    exact ⟨place, rfl⟩

/-- An integer of 64 bits is read as itself. -/
theorem readNumber_integerChars {value : Int}
    (h : -0x8000000000000000 ≤ value ∧ value < 0x10000000000000000) (place : Position) :
    ∃ after : Cursor, after.rest = [] ∧
      readNumber ⟨Operand.integerChars value, place⟩ = .ok (.integer value h, after) := by
  obtain ⟨digitsPlace, hSigned⟩ := readNumber_integerChars_eq value place
  have hFits : value.natAbs < 0x10000000000000000 := by omega
  obtain ⟨after, hAfter, hRead⟩ := readUnsigned_toDigits (decide (value < 0)) hFits digitsPlace
  exact ⟨after, hAfter, by rw [hSigned, hRead, wholeNumber_natAbs h]⟩

/-- The first character of an integer tells that it is a number. -/
theorem exists_integerChars_eq_cons (value : Int) : ∃ x rest,
    Operand.integerChars value = x :: rest ∧ (x = '-' ∨ x.isDigit = true) := by
  by_cases hNegative : value < 0
  · rw [Operand.integerChars, if_pos hNegative]
    exact ⟨'-', _, rfl, .inl rfl⟩
  · rw [Operand.integerChars, if_neg hNegative]
    obtain ⟨x, rest, hCons, hDigit⟩ := exists_toDigits_eq_cons value.natAbs
    exact ⟨x, rest, hCons, .inr hDigit⟩

/-- **The digits of an integer of 64 bits are JSON text for it.** -/
theorem parse_integerChars {value : Int}
    (h : -0x8000000000000000 ≤ value ∧ value < 0x10000000000000000) :
    parse (String.ofList (Operand.integerChars value)) = .ok (.number (.integer value h)) := by
  obtain ⟨after, hAfter, hRead⟩ := readNumber_integerChars h ⟨1, 0⟩
  obtain ⟨x, rest, hText, hFirst⟩ := exists_integerChars_eq_cons value
  have hWritten : Written.read (String.ofList (Operand.integerChars value)) =
      (.scalar ⟨1, 0⟩ (.number (.integer value h)) after.position, .ok after) := by
    rw [Written.read, Cursor.start, String.toList_ofList, hText, Written.readAt_number hFirst,
      ← hText, hRead]
    rfl
  rw [parse_eq_ok_iff, hWritten]
  exact ⟨rfl, after, rfl, by rw [Cursor.isBlank, hAfter]; rfl⟩

end Json

/-! ## Decimals -/

/-- A text without blanks is not trimmed. -/
theorem Text.trim_of_not_isBlank {cs : List Char} (h : ∀ c ∈ cs, isBlank c = false) :
    trim cs = cs := by
  have hDrop : ∀ ds : List Char, (∀ c ∈ ds, isBlank c = false) → ds.dropWhile isBlank = ds :=
    fun ds hds => List.dropWhile_eq_self_iff.2 fun hl => by simp [hds ds[0] (List.getElem_mem hl)]
  rw [trim, trimEnd, hDrop cs h, hDrop cs.reverse fun c hc => h c (List.mem_reverse.1 hc),
    List.reverse_reverse]

namespace Number.Decimal

/-- The text of a decimal is a decimal text without an exponent. -/
theorem exists_decimalText_toChars (d : Decimal) : ∃ whole fraction,
    DecimalText d.toChars d.negative whole fraction 0 ∧
      mantissaOf whole fraction 0 = d.mantissa ∧ placesOf fraction 0 = d.scale := by
  obtain ⟨whole, fraction, hText, hWhole, hScale, hDigits, hValue⟩ :=
    ValidatorGen.Decimal.exists_toChars_eq d
  -- a scale of zero is written without a point
  have hFraction : SpellsFraction fraction (if d.scale = 0 then [] else '.' :: fraction) := by
    by_cases hZero : d.scale = 0
    · rw [if_pos hZero, List.length_eq_zero_iff.1 (hScale.trans hZero)]
      exact .none
    · rw [if_neg hZero]
      exact .point fun hNil => hZero (by rw [← hScale, hNil, List.length_nil])
  have hSome : whole ++ fraction ≠ [] := fun hNil => hWhole (List.append_eq_nil_iff.1 hNil).1
  have hParts : d.toChars = (if d.negative then ['-'] else []) ++
      (whole ++ ((if d.scale = 0 then [] else '.' :: fraction) ++ [])) := by
    rw [hText, List.append_nil]
  refine ⟨whole, fraction,
    ⟨⟨_, _, [], hParts, .printed d.negative, hFraction, .none⟩, hDigits, hSome⟩, ?_, ?_⟩
  · have hPower : (0 - (fraction.length : Int)).toNat = 0 := by omega
    rw [mantissaOf, hValue, hPower, Nat.pow_zero, Nat.mul_one]
  · rw [placesOf, hScale]
    omega

/-- The text of a decimal has at most 31 characters: a sign, 29 digits and a point. -/
theorem length_toChars_le (d : Decimal) : d.toChars.length ≤ 31 := by
  have hDigits : (Nat.toDigits 10 d.mantissa).length ≤ 29 :=
    (Nat.length_toDigits_le_iff (by decide) (by decide)).2
      (Nat.lt_trans d.mantissa_lt (by decide))
  have hScale := d.scale_le
  unfold toChars
  dsimp only
  simp only [List.length_append, List.length_take, List.length_replicate]
  split <;> split <;> simp <;> omega

/-- **The text of a decimal is read as the decimal.** -/
theorem read_toChars [Arithmetic] (d : Decimal) : read d.toChars = .ok (some d) := by
  obtain ⟨whole, fraction, hText, hMantissa, hScale⟩ := exists_decimalText_toChars d
  have hShort : d.toChars.length + 64 < 2 ^ 31 := by
    have := length_toChars_le d
    omega
  have hSign : d.negative = true → d.mantissa ≠ 0 := by
    intro hNegative hZero
    rw [d.zero_unsigned hZero] at hNegative
    cases hNegative
  have hPlace := placeFits_of_length_lt hText hShort (by decide)
  rw [read_eq_some_iff hText, hMantissa, hScale]
  exact ⟨⟨by decide, d.mantissa_lt, d.scale_le, hPlace⟩, rfl, rfl, fun h => ⟨h, hSign h⟩, And.left⟩

end Number.Decimal

/-! ## Literals -/

namespace IntegerKind

/-- All integers fit 64 bits. -/
theorem inRange_of_kind {kind : IntegerKind} {value : Int}
    (h : kind.low ≤ value ∧ value ≤ kind.high) :
    -0x8000000000000000 ≤ value ∧ value < 0x10000000000000000 := by
  have hLow : -0x8000000000000000 ≤ kind.low := by cases kind <;> decide
  have hHigh : kind.high < 0x10000000000000000 := by cases kind <;> decide
  omega

end IntegerKind

open Number (Decimal Arithmetic)

namespace Operand

/-- **Literals read back.** The literal of an integer, without its suffix, is JSON text for an
integer that gives the same operand of its kind. The literal of a decimal, without its suffix, is a
string that gives the same decimal, with its sign, its digits and its places. -/
theorem literals_read_back [Arithmetic] :
    (∀ kind value inRange, ∃ text fits,
      literal (.integer kind value inRange) = text ++ kind.suffix ∧
        Json.parse text = .ok (.number (.integer value fits)) ∧
        ofJson (.integer kind) (.number (.integer value fits)) =
          .ok (some (.integer kind value inRange))) ∧
      ∀ d : Decimal, ∃ text, literal (.decimal d) = text ++ "M" ∧
        ofJson .decimal (.string text) = .ok (some (.decimal d)) := by
  constructor
  · intro kind value inRange
    refine ⟨_, _, rfl, Json.parse_integerChars (IntegerKind.inRange_of_kind inRange), ?_⟩
    rw [ofJson, ofInt?, dif_pos inRange]
  · intro d
    refine ⟨String.ofList d.toChars, rfl, ?_⟩
    -- a string operand is trimmed first, which takes nothing from a literal
    have hTrim : Text.trim d.toChars = d.toChars := Text.trim_of_not_isBlank
      fun _ hc => isBlank_of_isLiteralChar (isLiteralChar_of_mem_toChars hc)
    rw [ofJson, decimalText?, String.toList_ofList, hTrim]
    dsimp only
    rw [d.read_toChars]
    rfl

end Operand

end ValidatorGen

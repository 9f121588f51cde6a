import ValidatorGen.Proofs.ExactNumber

/-!
# The text of literals

Literals are written by the library and read by whoever reads the generated source. Here they are
read: `literalNumber?` takes a literal apart into sign, digits, point and suffix and gives the
number the digits denote by place value.

The reader is part of the theory only, and knows place value and nothing of how literals are made.
It is used to say what an emitted literal denotes without going through the operand again. The
second subject is the alphabet of literals, by which other modules find the end of a literal in a
longer text.

Main results:

* `Operand.isLiteralChar_of_mem_literal` — literals are made of letters, digits, signs and points,
  so that blanks, parentheses and punctuation end them;
* `literalNumber?_literal` — the literal of an integer or a decimal is read as its number.
-/

namespace ValidatorGen

open Number (Decimal Scientific Binary Format)

/-! ## Reading a literal -/

/-- What may follow the digits of an integer or a decimal. -/
def literalSuffixes : List (List Char) :=
  [[], ['U'], ['L'], ['U', 'L'], ['M']]

/-- The number that digits before and after a point denote. The quotient is taken in the rational
numbers, so nothing is rounded. -/
def placeValue (whole fraction : List Char) : ℚ :=
  Nat.ofDigitChars 10 (whole ++ fraction) 0 / 10 ^ fraction.length

/-- The number that a literal without a sign denotes, its suffix left aside. -/
def unsignedNumber? (cs : List Char) : Option ℚ :=
  let whole := cs.takeWhile Char.isDigit
  match cs.dropWhile Char.isDigit with
  | '.' :: rest =>
    let fraction := rest.takeWhile Char.isDigit
    if whole ≠ [] ∧ fraction ≠ [] ∧ rest.dropWhile Char.isDigit ∈ literalSuffixes then
      some (placeValue whole fraction)
    else none
  | suffix =>
    if whole ≠ [] ∧ suffix ∈ literalSuffixes then some (placeValue whole []) else none

/-- The number that a literal denotes, its suffix left aside. -/
def literalNumber? : List Char → Option ℚ
  | '-' :: rest => (unsignedNumber? rest).map fun x => -x
  | cs => unsignedNumber? cs

/-- A run of characters of one class ends where the first other character stands. -/
theorem span_append_of_stop {p : Char → Bool} {run rest : List Char} (hRun : ∀ c ∈ run, p c = true)
    (hStop : ∀ c ∈ rest.head?, p c = false) :
    (run ++ rest).takeWhile p = run ∧ (run ++ rest).dropWhile p = rest := by
  rw [List.takeWhile_append_of_pos hRun, List.dropWhile_append_of_pos hRun]
  cases rest with
  | nil => exact ⟨List.append_nil run, rfl⟩
  | cons c rest =>
    have hNot : ¬ p c = true := by
      rw [hStop c rfl]
      exact Bool.false_ne_true
    rw [List.takeWhile_cons_of_neg hNot, List.dropWhile_cons_of_neg hNot]
    exact ⟨List.append_nil run, rfl⟩

/-- A run that ends at the first character of another sort is told apart from what follows. -/
theorem append_stop_inj {p : Char → Bool} {run run' : List Char} {stop : Char}
    {rest rest' : List Char} (hRun : ∀ c ∈ run, p c = true) (hRun' : ∀ c ∈ run', p c = true)
    (hStop : p stop = false) (h : run ++ stop :: rest = run' ++ stop :: rest') :
    run = run' ∧ rest = rest' := by
  have hHead : ∀ tail : List Char, ∀ c ∈ (stop :: tail).head?, p c = false := by
    intro tail c hc
    rw [← Option.some.inj hc]
    exact hStop
  have hSpan := span_append_of_stop hRun (hHead rest)
  have hSpan' := span_append_of_stop hRun' (hHead rest')
  rw [h] at hSpan
  exact ⟨hSpan.1.symm.trans hSpan'.1, (List.cons.inj (hSpan.2.symm.trans hSpan'.2)).2⟩

/-- A character that is in no part and not in the separator is not in the text put together. -/
theorem notMem_intercalate {c : Char} {separator : List Char} {parts : List (List Char)}
    (hSeparator : c ∉ separator) (hParts : ∀ part ∈ parts, c ∉ part) :
    c ∉ separator.intercalate parts := by
  induction parts with
  | nil => simp
  | cons part parts ih =>
    have hHead := hParts part List.mem_cons_self
    cases parts with
    | nil => simpa using hHead
    | cons other parts =>
      have hTail := ih fun x hx => hParts x (List.mem_cons_of_mem _ hx)
      rw [List.intercalate_cons_cons, List.append_assoc]
      simp only [List.mem_append, hHead, hSeparator, hTail, or_self, not_false_eq_true]

/-- Suffixes do not start with a digit, so that the digits of a literal end where they should. -/
theorem span_digits_append_suffix {digits suffix : List Char}
    (hDigits : ∀ c ∈ digits, c.isDigit = true) (hSuffix : suffix ∈ literalSuffixes) :
    (digits ++ suffix).takeWhile Char.isDigit = digits ∧
      (digits ++ suffix).dropWhile Char.isDigit = suffix := by
  have hAll : (literalSuffixes.all fun s => s.head?.all fun c => !c.isDigit) = true := by decide
  refine span_append_of_stop hDigits fun c hc => ?_
  have hFirst := (Option.all_eq_true _ _).1 (List.all_eq_true.1 hAll suffix hSuffix) c hc
  simpa using hFirst

theorem unsignedNumber?_whole {whole suffix : List Char} (hWhole : whole ≠ [])
    (hDigits : ∀ c ∈ whole, c.isDigit = true) (hSuffix : suffix ∈ literalSuffixes) :
    unsignedNumber? (whole ++ suffix) = some (placeValue whole []) := by
  obtain ⟨hTake, hDrop⟩ := span_digits_append_suffix hDigits hSuffix
  rw [unsignedNumber?, hTake, hDrop]
  split
  · -- no suffix starts with a point
    simp [literalSuffixes] at hSuffix
  · exact if_pos ⟨hWhole, hSuffix⟩

theorem unsignedNumber?_fraction {whole fraction suffix : List Char} (hWhole : whole ≠ [])
    (hFraction : fraction ≠ []) (hWholeDigits : ∀ c ∈ whole, c.isDigit = true)
    (hFractionDigits : ∀ c ∈ fraction, c.isDigit = true) (hSuffix : suffix ∈ literalSuffixes) :
    unsignedNumber? (whole ++ '.' :: (fraction ++ suffix)) = some (placeValue whole fraction) := by
  obtain ⟨hTake, hDrop⟩ := span_digits_append_suffix hFractionDigits hSuffix
  have hPoint : Char.isDigit '.' = false := rfl
  rw [unsignedNumber?, List.takeWhile_append_of_pos hWholeDigits,
    List.dropWhile_append_of_pos hWholeDigits, List.takeWhile_cons_of_neg (by simp [hPoint]),
    List.dropWhile_cons_of_neg (by simp [hPoint]), List.append_nil]
  simp only [hTake, hDrop]
  exact if_pos ⟨hWhole, hFraction, hSuffix⟩

/-- A sign in front of a literal negates its number. Digits are not signs. -/
theorem literalNumber?_signed {negative : Bool} {cs : List Char} {x : ℚ}
    (hRead : unsignedNumber? cs = some x) (hHead : cs.head?.all Char.isDigit = true) :
    literalNumber? ((if negative then ['-'] else []) ++ cs) =
      some (if negative then -x else x) := by
  cases negative with
  | true => simp [literalNumber?, hRead]
  | false =>
    simp only [Bool.false_eq_true, if_false, List.nil_append]
    rw [literalNumber?.eq_def]
    split
    · simp [Char.isDigit] at hHead
    · exact hRead

/-! ## The digits of integers and decimals -/

theorem isDigit_of_mem_toDigits_ten {n : Nat} {c : Char} (h : c ∈ Nat.toDigits 10 n) :
    c.isDigit = true :=
  Nat.isDigit_of_mem_toDigits (by decide) (by decide) h

theorem head?_all_isDigit {cs rest : List Char} (hNonempty : cs ≠ [])
    (h : ∀ c ∈ cs, c.isDigit = true) : (cs ++ rest).head?.all Char.isDigit = true := by
  cases cs with
  | nil => exact absurd rfl hNonempty
  | cons c cs => exact h c List.mem_cons_self

/-- The text of a decimal: after the sign, digits that make up the mantissa, with as many of them
behind the point as the scale says and at least one before it. -/
theorem Decimal.exists_toChars_eq (d : Decimal) :
    ∃ whole fraction : List Char,
      d.toChars = (if d.negative then ['-'] else []) ++
        (whole ++ if d.scale = 0 then [] else '.' :: fraction) ∧
      whole ≠ [] ∧ fraction.length = d.scale ∧
      (∀ c ∈ whole ++ fraction, c.isDigit = true) ∧
      Nat.ofDigitChars 10 (whole ++ fraction) 0 = d.mantissa := by
  -- zeros in front of the mantissa, so that there is a digit before the point
  set digits := Nat.toDigits 10 d.mantissa with hDigits
  set padded := List.replicate (d.scale + 1 - digits.length) '0' ++ digits with hPadded
  have hLength : d.scale + 1 ≤ padded.length := by
    rw [hPadded, List.length_append, List.length_replicate]
    omega
  refine ⟨padded.take (padded.length - d.scale), padded.drop (padded.length - d.scale),
    by simp only [Decimal.toChars, ← hDigits, ← hPadded, List.append_assoc], ?_, ?_, ?_, ?_⟩
  · intro hNil
    have := congrArg List.length hNil
    rw [List.length_take, List.length_nil] at this
    omega
  · rw [List.length_drop]
    omega
  · intro c hc
    rw [List.take_append_drop, hPadded, List.mem_append] at hc
    rcases hc with hc | hc
    · rw [(List.mem_replicate.1 hc).2]
      rfl
    · exact isDigit_of_mem_toDigits_ten hc
  -- zeros in front do not count, and the digits of the mantissa are its own
  · rw [List.take_append_drop, hPadded, Nat.ofDigitChars_append, Nat.ofDigitChars_replicate_zero,
      Nat.mul_zero, hDigits, Nat.ofDigitChars_ten_toDigits]

/-- The literal of an integer is read as the integer. -/
theorem literalNumber?_integer {n : Int} {suffix : List Char} (hSuffix : suffix ∈ literalSuffixes) :
    literalNumber? (Operand.integerChars n ++ suffix) = some (n : ℚ) := by
  have hDigits : ∀ c ∈ Nat.toDigits 10 n.natAbs, c.isDigit = true :=
    fun _ hc => isDigit_of_mem_toDigits_ten hc
  have hRead := unsignedNumber?_whole Nat.toDigits_ne_nil hDigits hSuffix
  have hValue : placeValue (Nat.toDigits 10 n.natAbs) [] = (n.natAbs : ℚ) := by
    rw [placeValue, List.append_nil, Nat.ofDigitChars_ten_toDigits, List.length_nil, pow_zero,
      div_one]
  have hSigned := @literalNumber?_signed (decide (n < 0)) _ _ hRead
    (head?_all_isDigit Nat.toDigits_ne_nil hDigits)
  rw [hValue] at hSigned
  simp only [decide_eq_true_eq] at hSigned
  rw [Operand.integerChars, List.append_assoc, hSigned]
  congr 1
  -- the sign and the absolute value make up the integer
  split
  · have hAbs : (n.natAbs : ℤ) = -n := by omega
    rw [← Int.cast_natCast, hAbs, Int.cast_neg, neg_neg]
  · have hAbs : (n.natAbs : ℤ) = n := by omega
    rw [← Int.cast_natCast, hAbs]

/-- The literal of a decimal is read as its mantissa over the power of ten of its scale. -/
theorem literalNumber?_decimal (d : Decimal) :
    literalNumber? (d.toChars ++ ['M']) = some (d.signedMantissa / 10 ^ d.scale : ℚ) := by
  obtain ⟨whole, fraction, hText, hWhole, hScale, hDigits, hValue⟩ := Decimal.exists_toChars_eq d
  have hWholeDigits : ∀ c ∈ whole, c.isDigit = true :=
    fun c hc => hDigits c (List.mem_append_left _ hc)
  have hFractionDigits : ∀ c ∈ fraction, c.isDigit = true :=
    fun c hc => hDigits c (List.mem_append_right _ hc)
  have hMark : ['M'] ∈ literalSuffixes := by decide
  have hRead : unsignedNumber? (whole ++ (if d.scale = 0 then [] else '.' :: fraction) ++ ['M']) =
      some (d.mantissa / 10 ^ d.scale : ℚ) := by
    have hPlace : placeValue whole fraction = d.mantissa / 10 ^ d.scale := by
      rw [placeValue, hValue, hScale]
    rw [← hPlace]
    -- without decimal places there is no point, and nothing would stand behind it
    split
    · next hZero =>
      have hNil : fraction = [] := List.length_eq_zero_iff.1 (by rw [hScale, hZero])
      rw [hNil, List.append_nil]
      exact unsignedNumber?_whole hWhole hWholeDigits hMark
    · next hNonzero =>
      have hFraction : fraction ≠ [] := by
        intro hNil
        rw [hNil] at hScale
        exact hNonzero hScale.symm
      rw [List.append_assoc, List.cons_append]
      exact unsignedNumber?_fraction hWhole hFraction hWholeDigits hFractionDigits hMark
  have hHead : (whole ++ (if d.scale = 0 then [] else '.' :: fraction) ++ ['M']).head?.all
      Char.isDigit = true := by
    rw [List.append_assoc]
    exact head?_all_isDigit hWhole hWholeDigits
  rw [hText, List.append_assoc, literalNumber?_signed hRead hHead]
  congr 1
  rw [Decimal.signedMantissa]
  split
  · push_cast
    ring
  · rw [Int.cast_natCast]

/-- **Literals of exact operands are read as their numbers.** -/
theorem literalNumber?_literal {o : Operand} {x : ℚ} (h : o.rational? = some x) :
    literalNumber? o.literal.toList = some x := by
  cases o with
  | integer kind n _ =>
    have hSuffix : kind.suffix.toList ∈ literalSuffixes := by cases kind <;> decide
    rw [← Option.some.inj h, Operand.literal, String.toList_append, String.toList_ofList]
    exact literalNumber?_integer hSuffix
  | decimal d =>
    rw [← Option.some.inj h, Operand.literal, String.toList_append, String.toList_ofList]
    exact literalNumber?_decimal d
  | single _ | double _ => simp [Operand.rational?] at h

/-! ## The characters of literals -/

/-- Letters, digits, points and signs. -/
def isLiteralChar (c : Char) : Bool :=
  c.isAlphanum || c = '.' || c = '-'

/-- The codes of digits, capital letters, small letters, the point and the sign. -/
theorem code_of_isLiteralChar {c : Char} (h : isLiteralChar c = true) :
    (48 ≤ c.toNat ∧ c.toNat ≤ 57) ∨ (65 ≤ c.toNat ∧ c.toNat ≤ 90) ∨
      (97 ≤ c.toNat ∧ c.toNat ≤ 122) ∨ c.toNat = 46 ∨ c.toNat = 45 := by
  have hAlpha : c.isAlpha = (c.isUpper || c.isLower) := rfl
  have hUpper : c.isUpper = decide (c.val ≥ 'A'.val ∧ c.val ≤ 'Z'.val) := rfl
  have hLower : c.isLower = (decide (c.val ≥ 'a'.val) && decide (c.val ≤ 'z'.val)) := rfl
  simp only [isLiteralChar, Char.isAlphanum, hAlpha, hUpper, hLower, Char.isDigit,
    Bool.or_eq_true, Bool.and_eq_true, decide_eq_true_eq, ge_iff_le, UInt32.le_iff_toNat_le] at h
  rcases h with (((h | h) | h) | rfl) | rfl
  · exact Or.inr (Or.inl h)
  · exact Or.inr (Or.inr (Or.inl h))
  · exact Or.inl h
  · exact Or.inr (Or.inr (Or.inr (Or.inl rfl)))
  · exact Or.inr (Or.inr (Or.inr (Or.inr rfl)))

theorem isBlank_of_isLiteralChar {c : Char} (h : isLiteralChar c = true) :
    Text.isBlank c = false := by
  have hCode := code_of_isLiteralChar h
  simp only [Text.isBlank, Bool.or_eq_false_iff, Bool.and_eq_false_iff, decide_eq_false_iff_not]
  omega

theorem isLiteralChar_of_isDigit {c : Char} (h : c.isDigit = true) : isLiteralChar c = true := by
  simp [isLiteralChar, Char.isAlphanum, h]

theorem isLiteralChar_of_mem_toDigits {n : Nat} {c : Char} (h : c ∈ Nat.toDigits 10 n) :
    isLiteralChar c = true :=
  isLiteralChar_of_isDigit (isDigit_of_mem_toDigits_ten h)

theorem isLiteralChar_of_mem_zeros {n : Nat} {c : Char} (h : c ∈ List.replicate n '0') :
    isLiteralChar c = true := by
  rw [(List.mem_replicate.1 h).2]
  rfl

theorem isLiteralChar_of_mem_positional {d : Scientific} {c : Char} (h : c ∈ d.positional) :
    isLiteralChar c = true := by
  have hDigits : ∀ x ∈ d.digits, isLiteralChar x = true :=
    fun _ hx => isLiteralChar_of_mem_toDigits hx
  simp only [Scientific.positional] at h
  -- the point stands behind all digits, among them, or before all of them
  split at h
  · rcases List.mem_append.1 h with h | h
    · exact hDigits c h
    · exact isLiteralChar_of_mem_zeros h
  · split at h
    · rcases List.mem_append.1 h with h | h
      · exact hDigits c (List.mem_of_mem_take h)
      · rcases List.mem_cons.1 h with rfl | h
        · rfl
        · exact hDigits c (List.mem_of_mem_drop h)
    · rcases List.mem_cons.1 h with rfl | h
      · rfl
      · rcases List.mem_cons.1 h with rfl | h
        · rfl
        · rcases List.mem_append.1 h with h | h
          · exact isLiteralChar_of_mem_zeros h
          · exact hDigits c h

theorem isLiteralChar_of_mem_withExponent {d : Scientific} {c : Char}
    (h : c ∈ d.withExponent false) : isLiteralChar c = true := by
  have hDigits : ∀ x ∈ d.digits, isLiteralChar x = true :=
    fun _ hx => isLiteralChar_of_mem_toDigits hx
  simp only [Scientific.withExponent, Bool.false_eq_true, if_false] at h
  -- first the digits with a point after the first one, then the exponent
  rcases List.mem_append.1 h with h | h
  · split at h
    · simp at h
    · next first hOne =>
      exact hDigits c (by rw [hOne]; exact h)
    · next first rest _ hMany =>
      rcases List.mem_cons.1 h with rfl | h
      · exact hDigits c (by rw [hMany]; exact List.mem_cons_self)
      · rcases List.mem_cons.1 h with rfl | h
        · rfl
        · exact hDigits c (by rw [hMany]; exact List.mem_cons_of_mem _ h)
  · rcases List.mem_cons.1 h with rfl | h
    · rfl
    · rcases List.mem_append.1 h with h | h
      · split at h
        · rw [List.mem_singleton.1 h]
          rfl
        · simp at h
      · exact isLiteralChar_of_mem_toDigits h

theorem isLiteralChar_of_mem_magnitudeChars {f : Format} {rank : Fin f.ranks} {c : Char}
    (h : c ∈ Operand.magnitudeChars f rank) : isLiteralChar c = true := by
  simp only [Operand.magnitudeChars] at h
  split at h
  · rw [List.mem_singleton.1 h]
    rfl
  · split at h
    · exact isLiteralChar_of_mem_positional h
    · exact isLiteralChar_of_mem_withExponent h

/-- A sign in front changes nothing about which characters there are. -/
theorem isLiteralChar_of_mem_signed {negative : Bool} {cs : List Char}
    (hBody : ∀ c ∈ cs, isLiteralChar c = true) :
    ∀ c ∈ (if negative then ['-'] else []) ++ cs, isLiteralChar c = true := by
  intro c hc
  rcases List.mem_append.1 hc with hc | hc
  · cases negative with
    | true =>
      rw [List.mem_singleton.1 hc]
      rfl
    | false => simp at hc
  · exact hBody c hc

theorem isLiteralChar_of_mem_binaryLiteral {f : Format} {keyword suffix : String} {b : Binary f}
    (hKeyword : ∀ c ∈ keyword.toList, isLiteralChar c = true)
    (hSuffix : ∀ c ∈ suffix.toList, isLiteralChar c = true) :
    ∀ c ∈ (Operand.binaryLiteral keyword suffix b).toList, isLiteralChar c = true := by
  -- A number that is not finite is a member of its type; all others are digits with a sign.
  have hNamed : ∀ name ∈ [".NaN", ".PositiveInfinity", ".NegativeInfinity"],
      ∀ c ∈ (keyword ++ name).toList, isLiteralChar c = true := by
    intro name hName c hc
    rw [String.toList_append, List.mem_append] at hc
    rcases hc with hc | hc
    · exact hKeyword c hc
    · have hAll : ([".NaN", ".PositiveInfinity", ".NegativeInfinity"].all fun n =>
          n.toList.all isLiteralChar) = true := by decide
      exact List.all_eq_true.1 (List.all_eq_true.1 hAll name hName) c hc
  intro c hc
  cases b with
  | nan => exact hNamed ".NaN" (by simp) c hc
  | infinite negative =>
    cases negative with
    | false => exact hNamed ".PositiveInfinity" (by simp) c hc
    | true => exact hNamed ".NegativeInfinity" (by simp) c hc
  | finite negative rank =>
    rw [Operand.binaryLiteral, String.toList_append, String.toList_ofList, List.mem_append] at hc
    rcases hc with hc | hc
    · exact isLiteralChar_of_mem_signed
        (fun _ hx => isLiteralChar_of_mem_magnitudeChars hx) c hc
    · exact hSuffix c hc

theorem isLiteralChar_of_mem_toChars {d : Decimal} {c : Char} (h : c ∈ d.toChars) :
    isLiteralChar c = true := by
  obtain ⟨whole, fraction, hText, -, -, hDigits, -⟩ := Decimal.exists_toChars_eq d
  rw [hText] at h
  refine isLiteralChar_of_mem_signed ?_ c h
  intro x hx
  rcases List.mem_append.1 hx with hx | hx
  · exact isLiteralChar_of_isDigit (hDigits x (List.mem_append_left _ hx))
  · split at hx
    · simp at hx
    · rcases List.mem_cons.1 hx with rfl | hx
      · rfl
      · exact isLiteralChar_of_isDigit (hDigits x (List.mem_append_right _ hx))

/-- **Literals are made of letters, digits, points and signs**, whatever their kind. -/
theorem Operand.isLiteralChar_of_mem_literal (o : Operand) :
    ∀ c ∈ o.literal.toList, isLiteralChar c = true := by
  cases o with
  | integer kind n _ =>
    intro c hc
    rw [literal, String.toList_append, String.toList_ofList, List.mem_append] at hc
    rcases hc with hc | hc
    -- a sign, then digits, then the suffix of the kind
    · rw [integerChars, List.mem_append] at hc
      rcases hc with hc | hc
      · split at hc
        · rw [List.mem_singleton.1 hc]
          rfl
        · simp at hc
      · exact isLiteralChar_of_mem_toDigits hc
    · have hSuffix : kind.suffix.toList.all isLiteralChar = true := by
        cases kind <;> decide
      exact List.all_eq_true.1 hSuffix c hc
  | single value =>
    have hKeyword : "float".toList.all isLiteralChar = true := by decide
    have hSuffix : "F".toList.all isLiteralChar = true := by decide
    exact isLiteralChar_of_mem_binaryLiteral (List.all_eq_true.1 hKeyword)
      (List.all_eq_true.1 hSuffix)
  | double value =>
    have hKeyword : "double".toList.all isLiteralChar = true := by decide
    have hSuffix : "D".toList.all isLiteralChar = true := by decide
    exact isLiteralChar_of_mem_binaryLiteral (List.all_eq_true.1 hKeyword)
      (List.all_eq_true.1 hSuffix)
  | decimal d =>
    intro c hc
    rw [literal, String.toList_append, String.toList_ofList, List.mem_append] at hc
    rcases hc with hc | hc
    · exact isLiteralChar_of_mem_toChars hc
    · rw [List.mem_singleton.1 hc]
      rfl

end ValidatorGen

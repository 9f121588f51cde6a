import ValidatorGen.Proofs.Outcome
import Mathlib.Data.List.TakeDrop

/-!
# When a pass gives an output

All that a pass does is defined on every program, with one exception: the exponent of a decimal text
moves the point over the bytes of the digits, and digits outside of ASCII have more than one. If the
point comes to lie between the bytes of one digit, the text cannot be divided there and the pass is
given up. A build that checks its arithmetic gives up as well when the size of the exponent or the
place of the point does not fit 32 bits. This is followed from the place of the point up to the
pass.

Each level has its own equivalence, from a text and a place in it to a literal, an argument, a
finding and a pass, and none of them looks below the one before. `Literal.MisplacesPoint` collects
the three ways in which a point cannot be placed; above it nothing is said about arithmetic any
more.

Main results:

* `Literal.splitAt?_eq_none_iff` — a place in a text at which it cannot be divided is inside a
  character;
* `Literal.toDecimal_eq_error_iff` — the decimal texts whose point cannot be placed;
* `Argument.operand?_eq_error_iff` — the operands that cannot be read;
* `generate_eq_ok_iff_not_misplacesPoint` — a pass gives an output if and only if no operand that it
  reads is one of them.
-/

namespace ValidatorGen

namespace Number.Literal

/-! ## Places counted in bytes -/

@[simp]
theorem byteLength_nil : byteLength [] = 0 := rfl

@[simp]
theorem byteLength_cons (c : Char) (cs : List Char) :
    byteLength (c :: cs) = c.utf8Size + byteLength cs := by
  -- the fold adds to whatever it starts from
  have hFrom : ∀ n, cs.foldl (fun n c => n + c.utf8Size) n = n + byteLength cs := by
    unfold byteLength
    induction cs with
    | nil => intro n; rfl
    | cons d cs ih =>
      intro n
      rw [List.foldl_cons, List.foldl_cons, ih, ih (0 + d.utf8Size)]
      omega
  unfold byteLength
  rw [List.foldl_cons, hFrom, Nat.zero_add]
  rfl

@[simp]
theorem byteLength_append (as bs : List Char) :
    byteLength (as ++ bs) = byteLength as + byteLength bs := by
  induction as with
  | nil => simp
  | cons a as ih =>
    rw [List.cons_append, byteLength_cons, byteLength_cons, ih, Nat.add_assoc]

/-- Whether a place counted in bytes is inside a character of a text. -/
def IsInside (cs : List Char) (place : Nat) : Prop :=
  ∃ before c after, cs = before ++ c :: after ∧
    byteLength before < place ∧ place < byteLength before + c.utf8Size

theorem isInside_cons_iff {c : Char} {cs : List Char} {place : Nat} :
    IsInside (c :: cs) place ↔
      (0 < place ∧ place < c.utf8Size) ∨
        (c.utf8Size ≤ place ∧ IsInside cs (place - c.utf8Size)) := by
  constructor
  -- the character that the place is in is the first one, or it is among the others
  · rintro ⟨before, d, after, hSplit, hLow, hHigh⟩
    cases before with
    | nil =>
      obtain ⟨rfl, rfl⟩ := List.cons.inj hSplit
      rw [byteLength_nil] at hLow hHigh
      exact Or.inl ⟨hLow, by omega⟩
    | cons b before =>
      obtain ⟨rfl, rfl⟩ := List.cons.inj hSplit
      rw [byteLength_cons] at hLow hHigh
      exact Or.inr ⟨by omega, before, d, after, rfl, by omega, by omega⟩
  · rintro (⟨hLow, hHigh⟩ | ⟨hPast, before, d, after, rfl, hLow, hHigh⟩)
    · refine ⟨[], c, cs, rfl, ?_, ?_⟩
      · rw [byteLength_nil]
        exact hLow
      · rw [byteLength_nil]
        omega
    · refine ⟨c :: before, d, after, rfl, ?_, ?_⟩
      · rw [byteLength_cons]
        omega
      · rw [byteLength_cons]
        omega

/-- **A text cannot be divided at a place in it that is inside a character**, and only there. -/
theorem splitAt?_eq_none_iff {cs : List Char} {place : Nat} (h : place < byteLength cs) :
    splitAt? cs place = none ↔ IsInside cs place := by
  induction cs generalizing place with
  | nil => exact absurd h (Nat.not_lt_zero place)
  | cons c cs ih =>
    rw [byteLength_cons] at h
    rw [isInside_cons_iff]
    cases place with
    | zero => simp [splitAt?, Nat.pos_iff_ne_zero.1 c.utf8Size_pos]
    | succ n =>
      rw [splitAt?]
      -- the place is behind the first character, and what is left of it counts in the rest, or
      -- inside it
      by_cases hPast : c.utf8Size ≤ n + 1
      · rw [if_pos hPast, Option.map_eq_none_iff, ih (by omega)]
        simp [hPast, Nat.not_lt.2 hPast]
      · rw [if_neg hPast]
        simp [hPast, Nat.lt_of_not_le hPast]

/-! ## Decimal texts -/

theorem IsInside.lt_byteLength {cs : List Char} {place : Nat} (h : IsInside cs place) :
    place < byteLength cs := by
  obtain ⟨before, c, after, rfl, hLow, hHigh⟩ := h
  rw [byteLength_append, byteLength_cons]
  omega

/-- A point cannot be placed inside a digit, and can be placed anywhere else. In front of the digits
and behind them zeros are put instead, and nothing is divided. -/
theorem placePoint_eq_error_iff (l : Literal) (point : Int) :
    l.placePoint point = .error .misplacedPoint ↔
      0 < point ∧ IsInside (l.whole ++ l.fraction) point.toNat := by
  unfold placePoint
  dsimp only
  constructor
  · intro h
    split at h
    · cases h
    · next hPositive =>
      split at h
      · cases h
      · next hLt =>
        have hPlace : point.toNat < byteLength (l.whole ++ l.fraction) := by omega
        cases hSplit : splitAt? (l.whole ++ l.fraction) point.toNat with
        | none => exact ⟨by omega, (splitAt?_eq_none_iff hPlace).1 hSplit⟩
        | some parts =>
          rw [hSplit] at h
          cases h
  · rintro ⟨hPositive, hInside⟩
    -- a place inside a digit is before the end of the digits
    have hLt := hInside.lt_byteLength
    have hSplit := (splitAt?_eq_none_iff hLt).2 hInside
    rw [if_neg (by omega), if_neg (by omega), hSplit]

/-- Exponents are read as numbers of 32 bits. -/
theorem fits32_of_writtenExponent? {l : Literal} {exponent : Int}
    (h : l.writtenExponent? = some exponent) : Fits32 exponent := by
  unfold writtenExponent? at h
  split at h
  · obtain rfl := Option.some.inj h
    decide
  · obtain ⟨⟨-, hRange⟩, hValue⟩ := Option.ite_none_right_eq_some.1 h
    obtain rfl := Option.some.inj hValue
    exact hRange

section Placing

variable [Arithmetic]

/-- Whether the point of a decimal text cannot be placed. -/
inductive MisplacesPoint (l : Literal) : Prop where
  /-- The size of the exponent does not fit 32 bits, which is so for the least exponent only. -/
  | exponent (isChecked : Arithmetic.isChecked = true)
      (written : l.writtenExponent? = some (-0x80000000))
  /-- The place of the point does not fit 32 bits. -/
  | place (exponent : Int) (isChecked : Arithmetic.isChecked = true)
      (moderate : l.exponentValue? = .ok (some exponent))
      (large : ¬ Fits32 (wrap32 (byteLength l.whole) + exponent))
  /-- The place of the point, as a number of 32 bits, is inside a digit. -/
  | insideDigit (exponent point : Int) (moderate : l.exponentValue? = .ok (some exponent))
      (fits : Fits32 point)
      (congruent : ∃ k : Int, point = byteLength l.whole + exponent - k * 0x100000000)
      (positive : 0 < point) (inside : IsInside (l.whole ++ l.fraction) point.toNat)

theorem exponentValue?_eq_error_iff (l : Literal) :
    l.exponentValue? = .error .misplacedPoint ↔
      Arithmetic.isChecked = true ∧ l.writtenExponent? = some (-0x80000000) := by
  unfold exponentValue?
  cases hWritten : l.writtenExponent? with
  | none => simp
  | some exponent =>
    -- of all numbers of 32 bits, only the least one has a size that is none
    have hFits := fits32_of_writtenExponent? hWritten
    have hLeast : ¬ Fits32 exponent.natAbs ↔ exponent = -0x80000000 := by
      unfold Fits32 at hFits ⊢
      omega
    dsimp only
    rw [except_map_eq_error_iff, settle_eq_error_iff, hLeast, Option.some.injEq, and_comm]

/-- The place of the point is congruent to the number of bytes before it plus the exponent. -/
theorem congruent_of_point {l : Literal} {exponent point : Int}
    (h : l.point exponent = .ok point) : Fits32 point ∧
      ∃ k : Int, point = byteLength l.whole + exponent - k * 0x100000000 := by
  obtain ⟨hFits, k, hPoint⟩ := fits32_of_settle h
  obtain ⟨j, hWrap⟩ := exists_wrap32_eq (byteLength l.whole)
  exact ⟨hFits, j + k, by omega⟩

/-- An exponent cannot be taken away if the place of the point does not fit 32 bits, in a build that
checks this, or if it is inside a digit. -/
theorem expand_eq_error_iff (l : Literal) (exponent : Int) :
    l.expand exponent = .error .misplacedPoint ↔
      (Arithmetic.isChecked = true ∧ ¬ Fits32 (wrap32 (byteLength l.whole) + exponent)) ∨
        ∃ point, l.point exponent = .ok point ∧ 0 < point ∧
          IsInside (l.whole ++ l.fraction) point.toNat := by
  have hPoint : l.point exponent = .error .misplacedPoint ↔
      Arithmetic.isChecked = true ∧ ¬ Fits32 (wrap32 (byteLength l.whole) + exponent) := by
    rw [point, settle_eq_error_iff, and_comm]
  rw [expand, except_map_eq_error_iff, positional, except_bind_eq_error_iff, hPoint]
  simp only [placePoint_eq_error_iff]

/-- **A decimal text that cannot be read is one whose point cannot be placed.** -/
theorem toDecimal_eq_error_iff (l : Literal) :
    l.toDecimal = .error .misplacedPoint ↔ l.MisplacesPoint := by
  unfold toDecimal
  rw [except_bind_eq_error_iff, exponentValue?_eq_error_iff]
  constructor
  · rintro (⟨hChecked, hWritten⟩ | ⟨moderate, hModerate, hError⟩)
    · exact .exponent hChecked hWritten
    · cases moderate with
      | none => cases hError
      | some exponent =>
        rcases (l.expand_eq_error_iff exponent).1 hError with
          ⟨hChecked, hLarge⟩ | ⟨point, hPlaced, hPositive, hInside⟩
        · exact .place exponent hChecked hModerate hLarge
        · obtain ⟨hFits, hCongruent⟩ := congruent_of_point hPlaced
          exact .insideDigit exponent point hModerate hFits hCongruent hPositive hInside
  · rintro (⟨hChecked, hWritten⟩ | ⟨exponent, hChecked, hModerate, hLarge⟩ |
      ⟨exponent, point, hModerate, hFits, hCongruent, hPositive, hInside⟩)
    · exact .inl ⟨hChecked, hWritten⟩
    · exact .inr ⟨some exponent, hModerate,
        (l.expand_eq_error_iff exponent).2 (.inl ⟨hChecked, hLarge⟩)⟩
    · refine .inr ⟨some exponent, hModerate, ?_⟩
      -- the place is settled, or else it is the sum that does not fit
      cases hPlaced : l.point exponent with
      | error abort =>
        obtain ⟨hLarge, hChecked⟩ := settle_eq_error_iff.1 hPlaced
        exact (l.expand_eq_error_iff exponent).2 (.inl ⟨hChecked, hLarge⟩)
      | ok place =>
        obtain ⟨hFitsPlace, hCongruentPlace⟩ := congruent_of_point hPlaced
        obtain rfl := eq_of_congruent hFits hFitsPlace hCongruent hCongruentPlace
        exact (l.expand_eq_error_iff exponent).2 (.inr ⟨point, hPlaced, hPositive, hInside⟩)

end Placing

/-- Two Arabic-Indic digits stand after the point, which the exponent moves by one byte. -/
example : Decimal.read "1.\u0663\u0664e1".toList = .error .misplacedPoint := by decide

end Number.Literal

/-! ## Operands and passes -/

open Number (Arithmetic Literal)

section Passes

variable [Arithmetic]

/-- Whether an argument is a decimal text whose point cannot be placed. -/
def Argument.MisplacesPoint (a : Argument) : Prop :=
  OperandKind.ofName? a.kind = some .decimal ∧
    ∃ text literal, Operand.decimalText? a.value = some text ∧
      Literal.parse? text = some literal ∧ literal.MisplacesPoint

/-- **The arguments that cannot be read as operands**, all others being read or dropped. -/
theorem Argument.operand?_eq_error_iff (a : Argument) :
    a.operand? = .error .misplacedPoint ↔ a.MisplacesPoint := by
  unfold operand? MisplacesPoint
  cases hKind : OperandKind.ofName? a.kind with
  | none => simp
  | some kind =>
    unfold Operand.ofJson
    cases kind with
    | integer kind =>
      -- numbers of the other kinds are read or dropped
      simp only [Option.some.injEq, reduceCtorEq, false_and, iff_false]
      split <;> simp
    | single => simp
    | double => simp
    | decimal =>
      simp only [true_and]
      -- only the text of a decimal is taken apart at a place; numbers are given their text first
      cases hText : Operand.decimalText? a.value with
      | none => simp
      | some text =>
        dsimp only
        rw [except_map_eq_error_iff]
        unfold Number.Decimal.read
        cases hLiteral : Literal.parse? text with
        | none => simp [hLiteral]
        | some literal =>
          simp only [Option.some.injEq, exists_and_left, exists_eq_left', hLiteral,
            literal.toDecimal_eq_error_iff]

/-- Whether the operand that an annotation is given up for is the text of a decimal whose point
cannot be placed. The second operand is read only if the first one parses. -/
theorem Finding.aborts_iff (f : Finding) :
    f.Aborts ↔ ∃ index < f.kind.required,
      (∀ earlier < index, (f.applied.parsed? earlier).isSome) ∧
        ∃ argument ∈ f.applied.arguments[index]?, argument.MisplacesPoint := by
  -- an operand that is not there is missing, which is no reason to give up
  have hOperand : ∀ index, f.applied.operand? index = .error .misplacedPoint ↔
      ∃ argument ∈ f.applied.arguments[index]?, argument.MisplacesPoint := by
    intro index
    unfold Attribute.operand?
    cases f.applied.arguments[index]? with
    | none => simp
    | some argument => simp [argument.operand?_eq_error_iff]
  unfold Finding.Aborts Attribute.Aborts
  simp only [hOperand]

/-- **A pass gives an output if and only if it can place the points of all operands it reads.** It
reads the operands that the annotations of eligible candidates require, up to the first one of each
annotation that does not parse. -/
theorem generate_eq_ok_iff_not_misplacesPoint (config : Config) (c : Compilation) :
    (∃ out, generate config c = .ok out) ↔
      ∀ s ∈ (SymbolTable.ofCompilation c).candidates config.symbols,
        (∃ mode, (SymbolTable.ofCompilation c).eligible s = .ok mode) →
          ∀ f ∈ Finding.ofSymbol config.symbols s, ∀ index < f.kind.required,
            (∀ earlier < index, (f.applied.parsed? earlier).isSome) →
              ∀ argument ∈ f.applied.arguments[index]?, ¬ argument.MisplacesPoint := by
  -- whether there is an output does not depend on which one it is
  have hPass : (∃ out, generate config c = .ok out) ↔
      ¬ (SymbolTable.ofCompilation c).AbortsPass config.symbols := by
    constructor
    · rintro ⟨out, hOut⟩
      exact (generate_eq_ok_iff.1 hOut).1
    · intro hGood
      exact ⟨_, generate_of_not_abortsPass config hGood⟩
  rw [hPass]
  unfold SymbolTable.AbortsPass SymbolTable.Aborts
  simp only [Finding.aborts_iff, not_exists, not_and, forall_exists_index]

end Passes

end ValidatorGen

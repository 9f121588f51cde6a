import ValidatorGen.Proofs.LiteralReadBack
import ValidatorGen.Proofs.ShortestText
import ValidatorGen.Proofs.Ties

/-!
# What the text of a fragment says

The text of a constraint is all that is left of it in the generated source. Here it is shown to be
enough: constraints with one text are on one member, have one form and admit the same values. They
need not be the same constraint, because integers of different types may have one literal.

A name with a blank in it could hold an operator, so names are taken to have none. The member, the
operator and the first literal then end where the first character stands that none of them can hold.

The argument goes from the outside in. A fragment is cut into member, operator, first literal and
tail, each of which ends at a character that cannot belong to it. Of a literal it is told by its
letters what sort of number it is for, and within one sort printing is injective: for integers and
decimals because the digits can be read back, for binary numbers because the shortest text of a
number is nearest to no other.

Main results:

* `LiteralForm.ofChars_literal` — a literal tells what sort of number it is for;
* `Operand.compare?_eq_of_literal_eq` — operands with one literal are alike for all comparisons;
* `Constraint.admits_eq_of_fragment_eq` — constraints with one text admit the same values.
-/

namespace ValidatorGen

open Number (Binary Decimal Format isNumeralChar isNumeralChar_of_isDigit)

/-! ## Forms of literals -/

/-- The sorts of numbers whose literals can be told apart. -/
inductive LiteralForm where
  | integer
  | single
  | double
  | decimal
  deriving Repr, DecidableEq

namespace LiteralForm

/-- The form of a literal, by the letters it holds. The words for infinity hold an f, so 64-bit
numbers are recognized before 32-bit ones. -/
def ofChars (cs : List Char) : LiteralForm :=
  if 'M' ∈ cs then .decimal
  else if 'd' ∈ cs ∨ 'D' ∈ cs then .double
  else if 'f' ∈ cs ∨ 'F' ∈ cs then .single
  else .integer

/-- The form of the literals of a kind. -/
def ofKind : OperandKind → LiteralForm
  | .integer _ => .integer
  | .single => .single
  | .double => .double
  | .decimal => .decimal

end LiteralForm

namespace Operand

section Binary

variable {f : Format} {keyword suffix : String} (b : Binary f)

/-- A character that is in no part of a binary literal is not in the literal. -/
theorem notMem_binaryLiteral {c : Char} (hNumeral : isNumeralChar c = false)
    (hKeyword : c ∉ keyword.toList) (hSuffix : c ∉ suffix.toList)
    (hName : ∀ name ∈ memberNames, c ∉ name.toList) :
    c ∉ (binaryLiteral keyword suffix b).toList := by
  rcases binaryLiteral_cases keyword suffix b with
    ⟨name, hMem, -, -, hText⟩ | ⟨_, _, text, -, hText, hNumber⟩
  · rw [hText, List.mem_append, not_or]
    exact ⟨hKeyword, hName name hMem⟩
  · rw [hText, List.mem_append, not_or]
    exact ⟨notMem_numeral hNumeral hNumber, hSuffix⟩

/-- A binary literal holds the keyword or the suffix. -/
theorem mem_binaryLiteral {x y : Char} (hKeyword : x ∈ keyword.toList)
    (hSuffix : y ∈ suffix.toList) :
    x ∈ (binaryLiteral keyword suffix b).toList ∨ y ∈ (binaryLiteral keyword suffix b).toList := by
  rcases binaryLiteral_cases keyword suffix b with
    ⟨name, -, -, -, hText⟩ | ⟨_, _, text, -, hText, -⟩
  · rw [hText]
    exact .inl (List.mem_append_left _ hKeyword)
  · rw [hText]
    exact .inr (List.mem_append_right _ hSuffix)

end Binary

theorem notMem_integerChars {n : Int} {c : Char} (h : isNumeralChar c = false) :
    c ∉ integerChars n := by
  intro hMem
  rw [integerChars, List.mem_append] at hMem
  rcases hMem with hSign | hDigit
  · split at hSign
    · rw [List.mem_singleton.1 hSign] at h
      exact absurd h (by decide)
    · exact List.not_mem_nil hSign
  · rw [isNumeralChar_of_isDigit (isDigit_of_mem_toDigits_ten hDigit)] at h
    exact Bool.false_ne_true h.symm

/-- **A literal tells what sort of number it is for.** -/
theorem ofChars_literal (o : Operand) :
    LiteralForm.ofChars o.literal.toList = LiteralForm.ofKind o.kind := by
  -- each letter is excluded or found in the parts of the literal, in the order in which the form
  -- asks for them
  cases o with
  | integer kind n _ =>
    have hSuffix : ∀ c ∈ kind.suffix.toList, c ∈ ['U', 'L'] := by
      cases kind <;> simp [IntegerKind.suffix]
    have hNone : ∀ c, isNumeralChar c = false → c ∉ ['U', 'L'] →
        c ∉ (String.ofList (integerChars n) ++ kind.suffix).toList := by
      intro c hNumeral hOther
      rw [String.toList_append, String.toList_ofList, List.mem_append, not_or]
      exact ⟨notMem_integerChars hNumeral, fun hc => hOther (hSuffix c hc)⟩
    rw [literal, LiteralForm.ofChars, if_neg (hNone 'M' (by decide) (by decide)),
      if_neg (not_or.2 ⟨hNone 'd' (by decide) (by decide), hNone 'D' (by decide) (by decide)⟩),
      if_neg (not_or.2 ⟨hNone 'f' (by decide) (by decide), hNone 'F' (by decide) (by decide)⟩)]
    rfl
  | single value =>
    have hDecimal : 'M' ∉ (binaryLiteral "float" "F" value).toList :=
      notMem_binaryLiteral value (by decide) (by decide) (by decide) (by decide)
    have hSmall : 'd' ∉ (binaryLiteral "float" "F" value).toList :=
      notMem_binaryLiteral value (by decide) (by decide) (by decide) (by decide)
    have hCapital : 'D' ∉ (binaryLiteral "float" "F" value).toList :=
      notMem_binaryLiteral value (by decide) (by decide) (by decide) (by decide)
    have hMark : 'f' ∈ (binaryLiteral "float" "F" value).toList ∨
        'F' ∈ (binaryLiteral "float" "F" value).toList :=
      mem_binaryLiteral value (by decide) (by decide)
    rw [literal, LiteralForm.ofChars, if_neg hDecimal, if_neg (not_or.2 ⟨hSmall, hCapital⟩),
      if_pos hMark]
    rfl
  | double value =>
    have hDecimal : 'M' ∉ (binaryLiteral "double" "D" value).toList :=
      notMem_binaryLiteral value (by decide) (by decide) (by decide) (by decide)
    have hMark : 'd' ∈ (binaryLiteral "double" "D" value).toList ∨
        'D' ∈ (binaryLiteral "double" "D" value).toList :=
      mem_binaryLiteral value (by decide) (by decide)
    rw [literal, LiteralForm.ofChars, if_neg hDecimal, if_pos hMark]
    rfl
  | decimal d =>
    have hMark : 'M' ∈ (String.ofList d.toChars ++ "M").toList := by
      rw [String.toList_append]
      exact List.mem_append_right _ (List.mem_singleton.2 rfl)
    rw [literal, LiteralForm.ofChars, if_pos hMark]
    rfl

/-! ## Operands with one literal -/

/-- Whether two operands give the same answer in every comparison, since their exact values and
their binary numbers are the same. Comparisons see an operand through these two alone, so alike
operands cannot be told apart by them. -/
structure Alike (a b : Operand) : Prop where
  exact : a.exactValue? = b.exactValue?
  double : a.toDouble = b.toDouble

theorem Alike.refl (o : Operand) : o.Alike o :=
  ⟨rfl, rfl⟩

theorem Alike.compare?_eq {a b : Operand} (h : a.Alike b) (value : Operand) :
    value.compare? a = value.compare? b := by
  rw [compare?, compare?, h.exact, h.double]

/-- Literals of binary numbers of one width are different if the numbers are. -/
theorem single_literal_injective :
    Function.Injective fun b : Binary .single => literal (.single b) :=
  binaryLiteral_injective (show isNumeralChar 'o' = false by decide) (by decide) (by decide)

theorem double_literal_injective :
    Function.Injective fun b : Binary .double => literal (.double b) :=
  binaryLiteral_injective (show isNumeralChar 'o' = false by decide) (by decide) (by decide)

theorem decimal_literal_injective : Function.Injective fun d : Decimal => literal (.decimal d) := by
  intro d d' hSame
  have hText : d.toChars ++ "M".toList = d'.toChars ++ "M".toList := by
    simpa only [literal, String.toList_append, String.toList_ofList] using
      congrArg String.toList hSame
  -- the text is read as the decimal, so it is that of one decimal only
  have hRead := d.read_toChars
  rw [List.append_cancel_right hText, d'.read_toChars] at hRead
  exact (Option.some.inj (Except.ok.inj hRead)).symm

/-- Integers of any types with one literal have one value. -/
theorem integer_eq_of_literal_eq {kind kind' : IntegerKind} {n n' : Int}
    {h : kind.low ≤ n ∧ n ≤ kind.high} {h' : kind'.low ≤ n' ∧ n' ≤ kind'.high}
    (hSame : literal (.integer kind n h) = literal (.integer kind' n' h')) : n = n' := by
  have hRead := literalNumber?_literal (o := .integer kind n h) rfl
  rw [hSame, literalNumber?_literal (o := .integer kind' n' h') rfl] at hRead
  exact (Int.cast_injective (Option.some.inj hRead)).symm

/-- **Operands with one literal are alike.** -/
theorem alike_of_literal_eq {a b : Operand} (h : a.literal = b.literal) : a.Alike b := by
  -- operands of different sorts have different literals, so only one case is left for each sort
  have hForm : LiteralForm.ofKind a.kind = LiteralForm.ofKind b.kind := by
    rw [← a.ofChars_literal, ← b.ofChars_literal, h]
  cases a with
  | integer kind n inRange =>
    cases b with
    | integer kind' n' inRange' =>
      obtain rfl := integer_eq_of_literal_eq h
      exact ⟨rfl, by rw [toDouble, toDouble]⟩
    | single _ | double _ | decimal _ => cases hForm
  | single x =>
    cases b with
    | single y =>
      rw [single_literal_injective h]
      exact .refl _
    | integer _ _ _ | double _ | decimal _ => cases hForm
  | double x =>
    cases b with
    | double y =>
      rw [double_literal_injective h]
      exact .refl _
    | integer _ _ _ | single _ | decimal _ => cases hForm
  | decimal d =>
    cases b with
    | decimal d' =>
      rw [decimal_literal_injective h]
      exact .refl _
    | integer _ _ _ | single _ | double _ => cases hForm

end Operand

namespace Constraint

/-! ## The parts of a fragment -/

/-- The operator in front of the first operand. -/
def firstOperator : Constraint → String
  | .bound b => b.operator
  | .range _ => ">"

/-- What follows the first operand. -/
def tail : Constraint → List Char
  | .bound _ => [')']
  | .range r => ' ' :: (("&& " ++ r.member ++ " < ").toList ++ (r.high.literal.toList ++ [')']))

theorem toList_fragment (c : Constraint) :
    c.fragment.toList = '(' :: (c.member.toList ++ ' ' :: (c.firstOperator.toList ++
      ' ' :: (c.operands.1.literal.toList ++ c.tail))) := by
  cases c with
  | bound b => simp [fragment, Bound.fragment, member, firstOperator, operands, tail]
  | range r => simp [fragment, Range.fragment, member, firstOperator, operands, tail]

theorem notMem_firstOperator (c : Constraint) : ' ' ∉ c.firstOperator.toList := by
  match c with
  | .range _ => simp [firstOperator]
  | .bound ⟨_, _, direction, inclusive⟩ =>
    cases direction <;> cases inclusive <;> simp [firstOperator, Bound.operator]

/-- No literal goes on with what follows a first operand. -/
theorem isLiteralChar_head_tail (c : Constraint) :
    ∀ x ∈ c.tail.head?, isLiteralChar x = false := by
  intro x hx
  cases c with
  | bound b =>
    obtain rfl := Option.some.inj hx
    decide
  | range r =>
    obtain rfl := Option.some.inj hx
    decide

/-- **The parts of a fragment are told from its text**, if there is no blank in the member. -/
theorem parts_eq_of_fragment_eq {a b : Constraint} (ha : ' ' ∉ a.member.toList)
    (hb : ' ' ∉ b.member.toList) (h : a.fragment = b.fragment) :
    a.member = b.member ∧ a.firstOperator = b.firstOperator ∧
      a.operands.1.literal = b.operands.1.literal ∧ a.tail = b.tail := by
  have hText := congrArg String.toList h
  rw [toList_fragment, toList_fragment] at hText
  have hBlank : ∀ {cs : List Char}, ' ' ∉ cs → ∀ c ∈ cs, (c != ' ') = true := by
    intro cs hNone c hc
    exact bne_iff_ne.2 fun hSpace => hNone (hSpace ▸ hc)
  -- the member and the operator end at the first blank behind them
  obtain ⟨hMember, hText⟩ := append_stop_inj (hBlank ha) (hBlank hb) (by decide)
    (List.cons.inj hText).2
  obtain ⟨hOperator, hText⟩ := append_stop_inj (hBlank a.notMem_firstOperator)
    (hBlank b.notMem_firstOperator) (by decide) hText
  -- the literal ends where a character stands that is in no literal
  have hFirst := span_append_of_stop a.operands.1.isLiteralChar_of_mem_literal
    a.isLiteralChar_head_tail
  have hSecond := span_append_of_stop b.operands.1.isLiteralChar_of_mem_literal
    b.isLiteralChar_head_tail
  rw [hText] at hFirst
  exact ⟨String.toList_injective hMember, String.toList_injective hOperator,
    String.toList_injective (hFirst.1.symm.trans hSecond.1), hFirst.2.symm.trans hSecond.2⟩

/-- Bounds that differ in direction, or in whether the end is included, have different operators. -/
theorem sides_eq_of_operator_eq {x y : Bound} (h : x.operator = y.operator) :
    x.direction = y.direction ∧ x.inclusive = y.inclusive := by
  obtain ⟨_, _, direction, inclusive⟩ := x
  obtain ⟨_, _, direction', inclusive'⟩ := y
  cases direction <;> cases inclusive <;> cases direction' <;> cases inclusive' <;>
    first
    | exact ⟨rfl, rfl⟩
    | simp [Bound.operator] at h

/-! ## Constraints with one text -/

/-- **Constraints with one text** are on one member, have one form and admit the same values of all
kinds, if there is no blank in the names of their members. -/
theorem admits_eq_of_fragment_eq {a b : Constraint} (ha : ' ' ∉ a.member.toList)
    (hb : ' ' ∉ b.member.toList) (h : a.fragment = b.fragment) :
    a.member = b.member ∧ a.shape = b.shape ∧ ∀ value, a.admits value = b.admits value := by
  obtain ⟨hMember, hOperator, hLiteral, hTail⟩ := parts_eq_of_fragment_eq ha hb h
  have hFirst := Operand.alike_of_literal_eq hLiteral
  refine ⟨hMember, ?_⟩
  -- what follows the first operand tells a bound from a range
  match a, b with
  | .bound x, .bound y =>
    obtain ⟨hDirection, hInclusive⟩ := sides_eq_of_operator_eq hOperator
    constructor
    · simp only [shape, hDirection, hInclusive]
    · intro value
      have hCompare : value.compare? x.threshold = value.compare? y.threshold :=
        hFirst.compare?_eq value
      simp only [admits, Bound.admits, hCompare, hDirection, hInclusive]
  | .range x, .range y =>
    have hNames : x.member = y.member := hMember
    -- the upper ends stand between the same texts
    rw [tail, tail, hNames] at hTail
    have hHigh := append_stop_inj x.high.isLiteralChar_of_mem_literal
      y.high.isLiteralChar_of_mem_literal (by decide)
      (List.append_cancel_left (List.cons.inj hTail).2)
    have hSecond := Operand.alike_of_literal_eq (String.toList_injective hHigh.1)
    refine ⟨rfl, fun value => ?_⟩
    have hLow : value.compare? x.low = value.compare? y.low := hFirst.compare?_eq value
    simp only [admits, Range.admits, hLow, hSecond.compare?_eq value]
  | .bound _, .range _ => exact absurd (List.cons.inj hTail).1 (by decide)
  | .range _, .bound _ => exact absurd (List.cons.inj hTail).1 (by decide)

/-- Ranges from three to nine whose ends are of different types. -/
theorem admits_eq_of_fragment_eq_integers :
    let low (kind : IntegerKind) (h : kind.low ≤ 3 ∧ 3 ≤ kind.high) : Operand := .integer kind 3 h
    let high (kind : IntegerKind) (h : kind.low ≤ 9 ∧ 9 ≤ kind.high) : Operand := .integer kind 9 h
    let small : Constraint := .range ⟨"Level", low .int8 (by decide), high .uint8 (by decide)⟩
    let large : Constraint := .range ⟨"Level", low .int32 (by decide), high .int16 (by decide)⟩
    ' ' ∉ "Level".toList ∧ small.fragment = large.fragment ∧ small ≠ large ∧
      ∀ value, small.admits value = large.admits value := by
  intro low high small large
  have hName : ' ' ∉ "Level".toList := by decide
  have hText : small.fragment = large.fragment := by decide
  refine ⟨hName, hText, by decide, ?_⟩
  exact (admits_eq_of_fragment_eq (a := small) (b := large) hName hName hText).2.2

end Constraint

end ValidatorGen

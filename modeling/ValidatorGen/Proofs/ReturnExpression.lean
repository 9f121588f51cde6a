import ValidatorGen.Proofs.LiteralText

/-!
# Reading a return expression

A generated method returns a conjunction of parenthesised comparisons. Here such an expression is
read from its text alone, without knowing what it was written from: lines, parentheses, `&&`, and
comparisons of a name with a literal. What is read is evaluated in exact rational arithmetic.

* `ReturnExpression.ofSource?` — the comparisons in the one return statement of a source;
* `Comparison.holds` — whether a comparison holds of the numbers of the members.

The reader is a check of what is written, so it shares no definition with the writer. It finds the
one line that starts with `return `, takes words apart at blanks and marks, and reads a literal by
its own grammar (`literalNumber?`). A text of another form gives nothing. Reading back what was
written is proved from the inside out: a comparison, several of them with `&&` in between, and a
group in parentheses. The lemma on conjunctions serves both for comparisons in a group and for
groups in an expression, which stand on lines of their own.

Main results:

* `Constraint.reads_fragment` — the fragment of a constraint is read as its comparisons,
  whatever stands after it;
* `Constraint.admits_eq_all_holds` — those comparisons hold exactly when the constraint admits the
  value of its member.
-/

namespace ValidatorGen

/-- The relation that an operator of a comparison stands for. The names tell what is demanded of the
value on the left. -/
inductive Relation where
  | above
  | atLeast
  | below
  | atMost
  deriving Repr, DecidableEq

/-- A comparison of a member with a number. -/
structure Comparison where
  member : String
  relation : Relation
  number : ℚ
  deriving DecidableEq

namespace Relation

def ofOperator? : List Char → Option Relation
  | ['>'] => some .above
  | ['>', '='] => some .atLeast
  | ['<'] => some .below
  | ['<', '='] => some .atMost
  | _ => none

def holds : Relation → ℚ → ℚ → Bool
  | .above, x, y => y < x
  | .atLeast, x, y => y ≤ x
  | .below, x, y => x < y
  | .atMost, x, y => x ≤ y

end Relation

/-- Whether a comparison holds of the numbers of the members. -/
def Comparison.holds (number : String → ℚ) (c : Comparison) : Bool :=
  c.relation.holds (number c.member) c.number

namespace ReturnExpression

/-! ## The reader -/

/-- The characters of names, operators and literals. -/
def isWordChar (c : Char) : Bool :=
  !Text.isBlank c && !(c = '(' || c = ')' || c = '&' || c = ';')

/-- Reads a name, an operator and a literal, each apart from the next by one space. -/
def comparison? (cs : List Char) : Option (Comparison × List Char) :=
  match cs.dropWhile isWordChar with
  | ' ' :: afterName =>
    match afterName.dropWhile isWordChar with
    | ' ' :: afterOperator => do
      let relation ← Relation.ofOperator? (afterName.takeWhile isWordChar)
      let number ← literalNumber? (afterOperator.takeWhile isWordChar)
      some (⟨String.ofList (cs.takeWhile isWordChar), relation, number⟩,
        afterOperator.dropWhile isWordChar)
    | _ => none
  | _ => none

/-- Reads one phrase or several with `&&` between them. Blanks may stand before `&&`, and one space
stands after it. There are never more phrases than `fuel`, the number of characters. -/
def conjunction? {α : Type} (phrase? : List Char → Option (α × List Char)) :
    Nat → List Char → Option (List α × List Char)
  | 0, _ => none
  | fuel + 1, cs => do
    let (first, rest) ← phrase? cs
    match rest.dropWhile Text.isBlank with
    | '&' :: '&' :: ' ' :: next =>
      let (others, rest) ← conjunction? phrase? fuel next
      some (first :: others, rest)
    | _ => some ([first], rest)

/-- Reads a conjunction of comparisons in parentheses. -/
def group? : List Char → Option (List Comparison × List Char)
  | '(' :: cs =>
    match conjunction? comparison? cs.length cs with
    | some (comparisons, ')' :: rest) => some (comparisons, rest)
    | _ => none
  | _ => none

/-- Reads a whole expression: `true`, which compares nothing, or a conjunction of groups. -/
def ofText? (cs : List Char) : Option (List Comparison) :=
  if cs = ['t', 'r', 'u', 'e'] then some []
  else
    match conjunction? group? cs.length cs with
    | some (groups, []) => some groups.flatten
    | _ => none

/-- What stands after `return ` at the start of a line, its indentation left aside. -/
def afterReturn? (line : List Char) : Option (List Char) :=
  match line.dropWhile (· = ' ') with
  | 'r' :: 'e' :: 't' :: 'u' :: 'r' :: 'n' :: ' ' :: rest => some rest
  | _ => none

/-- The text from the one line that starts with `return ` up to the next semicolon. There must be
exactly one such line. -/
def text? (source : List Char) : Option (List Char) :=
  match (source.splitOn '\n').dropWhile fun line => (afterReturn? line).isNone with
  | [] => none
  | line :: following =>
    if following.all fun line => (afterReturn? line).isNone then do
      let first ← afterReturn? line
      let statement := ['\n'].intercalate (first :: following)
      if ';' ∈ statement then some (statement.takeWhile (· ≠ ';')) else none
    else none

/-- The comparisons in the one return statement of a source. -/
def ofSource? (source : String) : Option (List Comparison) :=
  (text? source.toList).bind ofText?

/-! ## Reading what was written -/

/-- What stands after a word: nothing, or a character that does not belong to a word. A word ends
only there, so this is what has to be known of the text behind it. -/
def EndsWord (rest : List Char) : Prop :=
  ∀ c ∈ rest.head?, isWordChar c = false

/-- A reader reads a text as a value, whatever stands after it. The rest is given back untouched,
and the next reader goes on with it. -/
def Reads {α : Type} (phrase? : List Char → Option (α × List Char)) (text : List Char)
    (value : α) : Prop :=
  ∀ rest, EndsWord rest → phrase? (text ++ rest) = some (value, rest)

/-- Literals are words: they have no blanks and no marks in them. -/
theorem isWordChar_of_isLiteralChar {c : Char} (h : isLiteralChar c = true) :
    isWordChar c = true := by
  have hCode := code_of_isLiteralChar h
  have hBlank := isBlank_of_isLiteralChar h
  -- none of them is the code of a mark
  have hMark : ∀ m : Char, m.toNat ∈ [38, 40, 41, 59] → c ≠ m := by
    rintro m hm rfl
    simp only [List.mem_cons, List.not_mem_nil, or_false] at hm
    omega
  rw [isWordChar, hBlank, Bool.not_false, Bool.true_and, Bool.not_eq_true', decide_eq_false
    (hMark '(' (by decide)), decide_eq_false (hMark ')' (by decide)), decide_eq_false
    (hMark '&' (by decide)), decide_eq_false (hMark ';' (by decide))]
  rfl

/-- Three words with single spaces between them are read as a comparison. Each of them ends at the
space behind it, or at what stands after the literal. -/
theorem reads_comparison {name operator literal : List Char} {relation : Relation} {number : ℚ}
    (hName : ∀ c ∈ name, isWordChar c = true) (hOperator : ∀ c ∈ operator, isWordChar c = true)
    (hLiteral : ∀ c ∈ literal, isWordChar c = true)
    (hRelation : Relation.ofOperator? operator = some relation)
    (hNumber : literalNumber? literal = some number) :
    Reads comparison? (name ++ ' ' :: (operator ++ ' ' :: literal))
      ⟨String.ofList name, relation, number⟩ := by
  intro rest hRest
  have hSpace : ∀ tail : List Char, EndsWord (' ' :: tail) := by
    intro tail c hc
    rw [← Option.some.inj hc]
    rfl
  have hText : name ++ ' ' :: (operator ++ ' ' :: literal) ++ rest =
      name ++ ' ' :: (operator ++ ' ' :: (literal ++ rest)) := by
    simp only [List.append_assoc, List.cons_append]
  -- each of the three words ends where the next character is not one of a word
  obtain ⟨hTakeName, hDropName⟩ :=
    span_append_of_stop hName (hSpace (operator ++ ' ' :: (literal ++ rest)))
  obtain ⟨hTakeOperator, hDropOperator⟩ :=
    span_append_of_stop hOperator (hSpace (literal ++ rest))
  obtain ⟨hTakeLiteral, hDropLiteral⟩ := span_append_of_stop hLiteral hRest
  rw [hText, comparison?, hDropName]
  simp only [hDropOperator, hTakeName, hTakeOperator, hTakeLiteral, hDropLiteral, hRelation,
    hNumber]
  rfl

/-- The text of phrases that follow a first one, each behind a gap and `&&`. -/
def continuation {α : Type} (gap : List Char) (phrases : List (List Char × α)) : List Char :=
  phrases.flatMap fun p => gap ++ '&' :: '&' :: ' ' :: p.1

theorem continuation_cons {α : Type} (gap tail : List Char) (p : List Char × α)
    (phrases : List (List Char × α)) :
    continuation gap (p :: phrases) ++ tail =
      gap ++ '&' :: '&' :: ' ' :: (p.1 ++ (continuation gap phrases ++ tail)) := by
  simp only [continuation, List.flatMap_cons, List.append_assoc, List.cons_append]

/-- There are no more phrases than characters, so the number of characters is enough fuel. -/
theorem length_le_length_continuation {α : Type} (gap : List Char)
    (phrases : List (List Char × α)) : phrases.length ≤ (continuation gap phrases).length := by
  induction phrases with
  | nil => exact Nat.zero_le _
  | cons p phrases ih =>
    have hCons := congrArg List.length (continuation_cons gap [] p phrases)
    simp only [List.length_append, List.length_cons, List.length_nil] at hCons ⊢
    omega

/-- A conjunction of phrases is read phrase by phrase. By induction on the phrases after the first
one, for any fuel that is more than their number. What follows the last one must not look like the
start of another phrase. -/
theorem conjunction?_phrases {α : Type} {phrase? : List Char → Option (α × List Char)}
    {gap tail : List Char} (hGap : ∀ c ∈ gap, Text.isBlank c = true)
    (hTail : ∀ c ∈ tail.head?, c ≠ '&' ∧ isWordChar c = false ∧ Text.isBlank c = false) :
    ∀ (others : List (List Char × α)) (first : List Char × α) (fuel : Nat),
      others.length < fuel → (∀ p ∈ first :: others, Reads phrase? p.1 p.2) →
      conjunction? phrase? fuel (first.1 ++ (continuation gap others ++ tail)) =
        some (first.2 :: others.map Prod.snd, tail) := by
  intro others
  induction others with
  | nil =>
    intro first fuel hFuel hReads
    obtain ⟨fuel, rfl⟩ : ∃ n, fuel = n + 1 := ⟨fuel - 1, by omega⟩
    have hRead := hReads first List.mem_cons_self tail fun c hc => (hTail c hc).2.1
    rw [continuation, List.flatMap_nil, List.nil_append, conjunction?, hRead]
    cases tail with
    | nil => rfl
    | cons c tail =>
      -- what follows is neither a blank nor `&`, so the reader stops here
      obtain ⟨hNotAnd, -, hNotBlank⟩ := hTail c rfl
      simp only [Option.bind_eq_bind, Option.bind_some]
      rw [List.dropWhile_cons_of_neg (by rw [hNotBlank]; exact Bool.false_ne_true)]
      split
      · next h => exact absurd (List.cons.inj h).1 hNotAnd
      · rfl
  | cons second others ih =>
    intro first fuel hFuel hReads
    obtain ⟨fuel, rfl⟩ : ∃ n, fuel = n + 1 := ⟨fuel - 1, by omega⟩
    set next := second.1 ++ (continuation gap others ++ tail) with hNext
    -- the gap, or `&&` if there is none, ends the first phrase
    have hEnds : EndsWord (gap ++ '&' :: '&' :: ' ' :: next) := by
      intro c hc
      cases gap with
      | nil =>
        rw [← Option.some.inj hc]
        rfl
      | cons b gap =>
        rw [← Option.some.inj hc, isWordChar, hGap b List.mem_cons_self]
        rfl
    have hRead := hReads first List.mem_cons_self _ hEnds
    have hSkip : (gap ++ '&' :: '&' :: ' ' :: next).dropWhile Text.isBlank =
        '&' :: '&' :: ' ' :: next := by
      rw [List.dropWhile_append_of_pos hGap]
      exact List.dropWhile_cons_of_neg (by decide)
    have hRest := ih second fuel (by simpa using hFuel)
      fun p hp => hReads p (List.mem_cons_of_mem _ hp)
    rw [← hNext] at hRest
    rw [continuation_cons, ← hNext, conjunction?, hRead]
    simp only [Option.bind_eq_bind, Option.bind_some, hSkip, hRest]
    rfl

/-- Comparisons in parentheses, with ` && ` between them, are read as one group. -/
theorem group?_phrases {first : List Char} {value : Comparison} {rest : List Char}
    (others : List (List Char × Comparison)) (hFirst : Reads comparison? first value)
    (hOthers : ∀ p ∈ others, Reads comparison? p.1 p.2) :
    group? ('(' :: (first ++ (continuation [' '] others ++ ')' :: rest))) =
      some (value :: others.map Prod.snd, rest) := by
  have hGap : ∀ c ∈ [' '], Text.isBlank c = true := by
    intro c hc
    rw [List.mem_singleton.1 hc]
    decide
  have hClose : ∀ c ∈ (')' :: rest).head?, c ≠ '&' ∧ isWordChar c = false ∧
      Text.isBlank c = false := by
    intro c hc
    rw [← Option.some.inj hc]
    decide
  -- Each comparison takes characters, so the length of the text is enough for all of them.
  have hFuel : others.length < (first ++ (continuation [' '] others ++ ')' :: rest)).length := by
    have hShort := length_le_length_continuation [' '] others
    simp only [List.length_append, List.length_cons]
    omega
  have hReads : ∀ p ∈ (first, value) :: others, Reads comparison? p.1 p.2 := by
    intro p hp
    rcases List.mem_cons.1 hp with rfl | hp
    · exact hFirst
    · exact hOthers p hp
  rw [group?, conjunction?_phrases hGap hClose others (first, value) _ hFuel hReads]
  rfl

/-! ## Comparisons with operands -/

theorem isWordChar_of_mem_operator {operator : List Char} {relation : Relation}
    (h : Relation.ofOperator? operator = some relation) :
    ∀ c ∈ operator, isWordChar c = true := by
  rw [← List.all_eq_true]
  unfold Relation.ofOperator? at h
  split at h
  · decide
  · decide
  · decide
  · decide
  · simp at h

/-- The text that compares a name with an operand. -/
def comparisonChars (name operator : String) (operand : Operand) : List Char :=
  name.toList ++ ' ' :: (operator.toList ++ ' ' :: operand.literal.toList)

theorem reads_comparisonChars {name operator : String} {operand : Operand} {relation : Relation}
    {number : ℚ} (hName : ∀ c ∈ name.toList, isWordChar c = true)
    (hRelation : Relation.ofOperator? operator.toList = some relation)
    (hNumber : operand.rational? = some number) :
    Reads comparison? (comparisonChars name operator operand) ⟨name, relation, number⟩ := by
  have hLiteral : ∀ c ∈ operand.literal.toList, isWordChar c = true :=
    fun c hc => isWordChar_of_isLiteralChar (operand.isLiteralChar_of_mem_literal c hc)
  have hRead := reads_comparison hName (isWordChar_of_mem_operator hRelation) hLiteral hRelation
    (literalNumber?_literal hNumber)
  rwa [String.ofList_toList] at hRead

end ReturnExpression

/-! ## The comparisons of a constraint -/

/-- The relation that a bound demands. It is the operator that is written between the member and the
threshold. -/
def Bound.relation (b : Bound) : Relation :=
  match b.direction, b.inclusive with
  | .greater, false => .above
  | .greater, true => .atLeast
  | .less, false => .below
  | .less, true => .atMost

/-- A bound admits a value exactly when its relation holds of the numbers. -/
theorem Bound.admits_eq_holds {b : Bound} {value : Operand} {x y : ℚ}
    (hValue : value.rational? = some x) (hThreshold : b.threshold.rational? = some y) :
    b.admits value = b.relation.holds x y := by
  rw [Bound.admits, Operand.compare?_of_rational hValue hThreshold, Bound.relation]
  -- in each order of the two numbers, the four relations are checked one by one
  rcases lt_trichotomy x y with hLt | rfl | hGt
  · rw [compare_lt_iff_lt.2 hLt]
    cases b.direction <;> cases b.inclusive <;>
      simp [Relation.holds, hLt, hLt.le, hLt.not_gt, hLt.not_ge]
  · rw [compare_eq_iff_eq.2 rfl]
    cases b.direction <;> cases b.inclusive <;> simp [Relation.holds]
  · rw [compare_gt_iff_gt.2 hGt]
    cases b.direction <;> cases b.inclusive <;>
      simp [Relation.holds, hGt, hGt.le, hGt.not_gt, hGt.not_ge]

namespace Constraint

/-- The comparisons a constraint stands for, when its operands stand for numbers. -/
def comparisons? : Constraint → Option (List Comparison)
  | .bound b => b.threshold.rational?.map fun x => [⟨b.member, b.relation, x⟩]
  | .range r =>
    r.low.rational?.bind fun x =>
      r.high.rational?.map fun y => [⟨r.member, .above, x⟩, ⟨r.member, .below, y⟩]

open ReturnExpression

/-- All operands stand for one rational number. -/
def IsExact (c : Constraint) : Prop :=
  c.operands.1.IsExact ∧ ∀ second ∈ c.operands.2, second.IsExact

theorem exists_comparisons?_of_isExact {c : Constraint} (h : c.IsExact) :
    ∃ comparisons, c.comparisons? = some comparisons := by
  obtain ⟨hFirst, hSecond⟩ := h
  obtain ⟨x, hx⟩ := Operand.exists_rational?_of_isExact hFirst
  cases c with
  | bound b =>
    have hThreshold : b.threshold.rational? = some x := hx
    exact ⟨_, by rw [comparisons?, hThreshold]; rfl⟩
  | range r =>
    have hLow : r.low.rational? = some x := hx
    obtain ⟨y, hHigh⟩ := Operand.exists_rational?_of_isExact (hSecond r.high rfl)
    exact ⟨_, by rw [comparisons?, hLow, hHigh]; rfl⟩

/-- **The comparisons of a constraint hold exactly when it admits the value of its member.** -/
theorem admits_eq_all_holds {c : Constraint} {value : Operand} {number : String → ℚ}
    {comparisons : List Comparison} (hComparisons : c.comparisons? = some comparisons)
    (hValue : value.rational? = some (number c.member)) :
    c.admits value = comparisons.all (Comparison.holds number) := by
  cases c with
  | bound b =>
    obtain ⟨y, hThreshold, rfl⟩ := Option.map_eq_some_iff.1 hComparisons
    rw [admits, Bound.admits_eq_holds hValue hThreshold]
    simp [Comparison.holds, member]
  | range r =>
    obtain ⟨y, hLow, hRest⟩ := Option.bind_eq_some_iff.1 hComparisons
    obtain ⟨z, hHigh, rfl⟩ := Option.map_eq_some_iff.1 hRest
    rw [admits, Range.admits, Operand.compare?_of_rational hValue hLow,
      Operand.compare?_of_rational hValue hHigh]
    simp [Comparison.holds, Relation.holds, member, compare_lt_iff_lt, compare_gt_iff_gt]

/-- **The fragment of a constraint is read as its comparisons**, whatever stands after it. A bound
has one comparison in its parentheses, a range two. -/
theorem reads_fragment {c : Constraint} {comparisons : List Comparison}
    (hComparisons : c.comparisons? = some comparisons)
    (hMember : ∀ ch ∈ c.member.toList, isWordChar ch = true) :
    Reads group? c.fragment.toList comparisons := by
  intro rest _
  cases c with
  | bound b =>
    obtain ⟨x, hThreshold, rfl⟩ := Option.map_eq_some_iff.1 hComparisons
    have hOperator : Relation.ofOperator? b.operator.toList = some b.relation := by
      rw [Bound.operator, Bound.relation]
      cases b.direction <;> cases b.inclusive <;> decide
    have hText : (Constraint.bound b).fragment.toList ++ rest =
        '(' :: (comparisonChars b.member b.operator b.threshold ++ ')' :: rest) := by
      simp [fragment, Bound.fragment, comparisonChars]
    rw [hText]
    exact group?_phrases [] (reads_comparisonChars hMember hOperator hThreshold) (by simp)
  | range r =>
    obtain ⟨x, hLow, hRest⟩ := Option.bind_eq_some_iff.1 hComparisons
    obtain ⟨y, hHigh, rfl⟩ := Option.map_eq_some_iff.1 hRest
    -- two comparisons in one pair of parentheses
    have hAbove : Relation.ofOperator? ">".toList = some .above := by decide
    have hBelow : Relation.ofOperator? "<".toList = some .below := by decide
    have hName : ∀ ch ∈ r.member.toList, isWordChar ch = true := hMember
    have hOthers : ∀ p ∈ [(comparisonChars r.member "<" r.high,
        (⟨r.member, .below, y⟩ : Comparison))], Reads comparison? p.1 p.2 := by
      intro p hp
      rw [List.mem_singleton.1 hp]
      exact reads_comparisonChars hName hBelow hHigh
    have hGroup := @group?_phrases _ _ rest _ (reads_comparisonChars hName hAbove hLow) hOthers
    have hText : (Constraint.range r).fragment.toList ++ rest =
        '(' :: (comparisonChars r.member ">" r.low ++
          (continuation [' '] [(comparisonChars r.member "<" r.high,
            (⟨r.member, .below, y⟩ : Comparison))] ++ ')' :: rest)) := by
      simp [fragment, Range.fragment, comparisonChars, continuation]
    rw [hText, hGroup]
    rfl

end Constraint

end ValidatorGen

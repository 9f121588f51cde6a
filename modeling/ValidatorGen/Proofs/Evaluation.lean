import ValidatorGen.Proofs.ReturnExpression
import ValidatorGen.Proofs.SourceText

/-!
# The generated expression means what the constraints say

The library holds two accounts of a list of constraints: the return expression that it writes into a
source, and `Constraint.evaluate`, which it uses to evaluate them itself. This module brings them
together. The source is read back by the reader of return expressions, which knows nothing of plans,
and what is read is evaluated over the rational numbers.

The names of a plan are free of blanks, since a line break in a name would end a line; names of
members are also free of the marks of expressions.

The proof has two halves. The first is about lines: the source is a list of them, no line but one
starts with the word for returning, and from that line up to the first semicolon stands the
expression. The second is about the expression: between its fragments stand line breaks and
indentation, which the reader skips, and each fragment is read as the comparisons that it was
written for.

That no other line is taken for the return statement has to be shown of everything that is written,
comments, headers and braces alike. `IsInert` is the property of a line that does this, and it
depends on little: how the line starts, and that there is no line break in it.

Main result:

* `Plan.source_agrees_with_evaluate` — reading the one return statement of a source and evaluating
  it gives the answer of `Constraint.evaluate`.
-/

namespace ValidatorGen

open Generation ReturnExpression

/-! ## Lines that are no return statements -/

/-- A line of its own that cannot be taken for a return statement. -/
def IsInert (text : List Char) : Prop :=
  '\n' ∉ text ∧ text.head?.any (fun c => c ≠ ' ' && c ≠ 'r') = true

instance (text : List Char) : Decidable (IsInert text) :=
  inferInstanceAs (Decidable (_ ∧ _))

theorem IsInert.append {a b : List Char} (ha : IsInert a) (hb : '\n' ∉ b) : IsInert (a ++ b) := by
  obtain ⟨hBreak, hHead⟩ := ha
  refine ⟨fun h => (List.mem_append.1 h).elim hBreak hb, ?_⟩
  cases a with
  | nil => simp at hHead
  | cons c a => exact hHead

theorem dropWhile_spaces (n : Nat) (text : List Char) :
    (List.replicate n ' ' ++ text).dropWhile (· = ' ') = text.dropWhile (· = ' ') :=
  List.dropWhile_append_of_pos fun _ hx => decide_eq_true (List.mem_replicate.1 hx).2

/-- Behind its indentation an inert line is not a return statement. -/
theorem afterReturn?_indented_of_isInert {text : List Char} (h : IsInert text) (n : Nat) :
    afterReturn? (List.replicate n ' ' ++ text) = none := by
  obtain ⟨-, hHead⟩ := h
  cases text with
  | nil => simp at hHead
  | cons c rest =>
    have hNot : c ≠ ' ' ∧ c ≠ 'r' := by simpa using hHead
    rw [afterReturn?, dropWhile_spaces, List.dropWhile_cons_of_neg (by simp [hNot.1])]
    split
    · next hText => exact absurd (List.cons.inj hText).1 hNot.2
    · rfl

theorem afterReturn?_indented_return (n : Nat) (text : List Char) :
    afterReturn? (List.replicate n ' ' ++ ("return ".toList ++ text)) = some text := by
  rw [afterReturn?, dropWhile_spaces]
  rfl

/-! ## Finding the return statement -/

theorem intercalate_append_nil (ls : List (List Char)) :
    ['\n'].intercalate (ls ++ [[]]) = ls.flatMap (· ++ ['\n']) := by
  induction ls with
  | nil => rfl
  | cons l ls ih =>
    rw [List.cons_append, List.intercalate_cons_of_ne_nil (by simp), ih, List.flatMap_cons]

/-- The one line that starts with `return ` is found among lines that do not. -/
theorem text?_lines {before after : List (List Char)} {line first : List Char}
    (hBreaks : ∀ l ∈ before ++ line :: after, '\n' ∉ l)
    (hBefore : ∀ l ∈ before, afterReturn? l = none) (hLine : afterReturn? line = some first)
    (hAfter : ∀ l ∈ after, afterReturn? l = none) {expression rest : List Char}
    (hStatement : first ++ '\n' :: after.flatMap (· ++ ['\n']) = expression ++ ';' :: rest)
    (hExpression : ';' ∉ expression) :
    text? ((before ++ line :: after).flatMap (· ++ ['\n'])) = some expression := by
  -- cut at its line breaks, the text falls into the lines, and nothing after the last break
  have hSplit : ((before ++ line :: after).flatMap (· ++ ['\n'])).splitOn '\n' =
      before ++ line :: (after ++ [[]]) := by
    rw [← intercalate_append_nil, List.splitOn_intercalate '\n' ?_ (by simp), List.append_assoc]
    · rfl
    · intro l hl
      rcases List.mem_append.1 hl with hl | hl
      · exact hBreaks l hl
      · rw [List.mem_singleton.1 hl]
        exact List.not_mem_nil
  have hFollowing : (after ++ [[]]).all (fun l => (afterReturn? l).isNone) = true := by
    rw [List.all_eq_true]
    intro l hl
    rcases List.mem_append.1 hl with hl | hl
    · rw [hAfter l hl]
      rfl
    · rw [List.mem_singleton.1 hl]
      rfl
  have hJoined : ['\n'].intercalate (first :: (after ++ [[]])) = expression ++ ';' :: rest := by
    rw [← List.cons_append, intercalate_append_nil, List.flatMap_cons, ← hStatement,
      List.append_assoc]
    rfl
  -- the first semicolon is the one that ends the statement
  have hTake : (expression ++ ';' :: rest).takeWhile (fun c => decide (c ≠ ';')) = expression := by
    refine (span_append_of_stop ?_ ?_).1
    · intro c hc
      exact decide_eq_true fun h => hExpression (h ▸ hc)
    · intro c hc
      rw [← Option.some.inj hc]
      rfl
  rw [text?, hSplit, List.dropWhile_append_of_pos (fun l hl => by rw [hBefore l hl]; rfl),
    List.dropWhile_cons_of_neg (by simp [hLine])]
  simp only [hFollowing, hLine, hJoined, hTake, if_true, Option.bind_eq_bind, Option.bind_some]
  exact if_pos (by simp)

/-! ## The lines of a plan -/

/-- A character that is no part of fragments apart from the names of members. -/
theorem notMem_fragment {c : Constraint} {ch : Char} (hMember : ch ∉ c.member.toList)
    (hMark : ch ∉ "( )<>=&".toList) (hLiteral : isLiteralChar ch = false) :
    ch ∉ c.fragment.toList := by
  have hOperand : ∀ o : Operand, ch ∉ o.literal.toList := by
    intro o ho
    have := o.isLiteralChar_of_mem_literal ch ho
    rw [hLiteral] at this
    exact Bool.false_ne_true this
  -- all that is in a fragment apart from names and literals
  have hMarks : ∀ mark ∈ ["(", " ", ")", " > ", " < ", " && ", ">", ">=", "<", "<="],
      ch ∉ mark.toList := by
    intro mark hIn hch
    have hAll : (["(", " ", ")", " > ", " < ", " && ", ">", ">=", "<", "<="].all fun m =>
        m.toList.all fun x => "( )<>=&".toList.contains x) = true := by decide
    have hContains := List.all_eq_true.1 (List.all_eq_true.1 hAll mark hIn) ch hch
    exact hMark (List.contains_iff_mem.1 hContains)
  -- a fragment is put together from these parts, and the character is in none of them
  cases c with
  | bound b =>
    have hOperator : ch ∉ b.operator.toList := by
      refine hMarks _ ?_
      rw [Bound.operator]
      cases b.direction <;> cases b.inclusive <;> decide
    have hName : ch ∉ b.member.toList := hMember
    simp only [Constraint.fragment, Bound.fragment, String.toList_append, List.mem_append,
      hName, hOperator, hOperand, hMarks "(" (by simp), hMarks " " (by simp),
      hMarks ")" (by simp), or_self, not_false_eq_true]
  | range r =>
    have hName : ch ∉ r.member.toList := hMember
    simp only [Constraint.fragment, Range.fragment, String.toList_append, List.mem_append,
      hName, hOperand, hMarks "(" (by simp), hMarks " > " (by simp), hMarks " && " (by simp),
      hMarks " < " (by simp), hMarks ")" (by simp), or_self, not_false_eq_true]

/-- The line that opens a type: two fixed words, and after them nothing but what the names hold, the
letters of a keyword and the marks around type parameters. -/
theorem Level.exists_header_eq (l : Level) : ∃ rest, l.header = "public partial " ++ rest ∧
    ∀ c, isLiteralChar c = false → c ∉ [' ', ',', '<', '>'] → c ∉ l.name.toList →
      (∀ t ∈ l.typeParameters, c ∉ t.toList) → c ∉ rest.toList := by
  refine ⟨l.kind.keyword ++ (" " ++ (l.name ++ if l.typeParameters.isEmpty then "" else
    "<" ++ ", ".intercalate l.typeParameters ++ ">")), ?_, ?_⟩
  · unfold header
    simp only [String.append_assoc]
  intro c hLiteral hMark hName hParameters
  simp only [List.mem_cons, List.not_mem_nil, or_false, not_or] at hMark
  obtain ⟨hSpace, hComma, hLess, hGreater⟩ := hMark
  have hKeyword : c ∉ l.kind.keyword.toList := by
    intro hMem
    have hAll : (l.kind.keyword.toList.all fun x => isLiteralChar x || x = ' ') = true := by
      cases l.kind <;> decide
    have hEither := List.all_eq_true.1 hAll c hMem
    simp [hLiteral, hSpace] at hEither
  have hList : c ∉ (", ".intercalate l.typeParameters).toList := by
    rw [String.toList_intercalate]
    refine notMem_intercalate ?_ ?_
    · simp [hComma, hSpace]
    · intro part hPart
      obtain ⟨t, ht, rfl⟩ := List.mem_map.1 hPart
      exact hParameters t ht
  have hBlank : c ∉ " ".toList := by simp [hSpace]
  have hOpen : c ∉ "<".toList := by simp [hLess]
  have hClose : c ∉ ">".toList := by simp [hGreater]
  simp only [String.toList_append, List.mem_append, hKeyword, hBlank, hName, false_or]
  -- a type without parameters has no angle brackets
  split
  · exact List.not_mem_nil
  · simp only [String.toList_append, List.mem_append, hOpen, hList, hClose, or_self,
      not_false_eq_true]

/-- Every line of a layout is inert. -/
def StepsInert (steps : List Step) : Prop :=
  ∀ text, Step.line text ∈ steps → IsInert text.toList

theorem StepsInert.append {a b : List Step} (ha : StepsInert a) (hb : StepsInert b) :
    StepsInert (a ++ b) := by
  intro text h
  exact (List.mem_append.1 h).elim (ha text) (hb text)

theorem StepsInert.line {text : String} {rest : List Step} (hText : IsInert text.toList)
    (hRest : StepsInert rest) : StepsInert (.line text :: rest) := by
  intro t h
  rcases List.mem_cons.1 h with h | h
  · rw [Step.line.inj h]
    exact hText
  · exact hRest t h

theorem line_mem_of_mem_lines {steps : List Step} :
    ∀ {depth : Nat} {l : Line}, l ∈ Layout.lines depth steps → Step.line l.text ∈ steps := by
  induction steps with
  | nil => intro depth l h; simp [Layout.lines] at h
  | cons step rest ih =>
    intro depth l h
    cases step with
    | line text =>
      rcases List.mem_cons.1 h with rfl | h
      · exact List.mem_cons_self
      · exact List.mem_cons_of_mem _ (ih h)
    | deeper => exact List.mem_cons_of_mem _ (@ih (depth + 1) l h)
    | shallower => exact List.mem_cons_of_mem _ (@ih (depth - 1) l h)

theorem stepsInert_opening : StepsInert Layout.opening := by
  refine StepsInert.line (by decide) ?_
  intro text h
  simp at h

theorem stepsInert_closing : StepsInert Layout.closing := by
  intro text h
  simp only [Layout.closing, List.mem_cons, List.not_mem_nil, or_false, reduceCtorEq,
    false_or, Step.line.injEq] at h
  rw [h]
  decide

namespace Plan

/-- All names in a plan. -/
def names (p : Plan) : List String :=
  p.inNamespace.toList ++ p.levels.flatMap (fun l => l.name :: l.typeParameters) ++
    p.capability :: p.constraints.map Constraint.member

/-- The line that opens a type is inert when its names have no line breaks. -/
theorem isInert_header {l : Level} (hName : '\n' ∉ l.name.toList)
    (hParameters : ∀ t ∈ l.typeParameters, '\n' ∉ t.toList) : IsInert l.header.toList := by
  obtain ⟨rest, hHeader, hRest⟩ := l.exists_header_eq
  have hStart : IsInert "public partial ".toList := by decide
  rw [hHeader, String.toList_append]
  exact hStart.append (hRest '\n' (by decide) (by decide) hName hParameters)

theorem stepsInert_openingSteps {p : Plan} (hCapability : '\n' ∉ p.capability.toList) :
    ∀ {levels : List Level}, (∀ l ∈ levels, IsInert l.header.toList) →
      StepsInert (p.openingSteps levels) := by
  intro levels
  induction levels with
  | nil =>
    intro _ text h
    simp [openingSteps] at h
  | cons l rest ih =>
    intro hLevels
    have hHead := hLevels l List.mem_cons_self
    have hRest := ih fun x hx => hLevels x (List.mem_cons_of_mem _ hx)
    cases rest with
    | nil =>
      -- the innermost header goes on with the interface
      refine StepsInert.line ?_ stepsInert_opening
      simp only [String.toList_append]
      exact (hHead.append (by decide)).append hCapability
    | cons m rest => exact StepsInert.line hHead (stepsInert_opening.append hRest)

theorem isInert_signature {p : Plan} (hCapability : '\n' ∉ p.capability.toList) :
    IsInert p.signature.toList := by
  have hStart : IsInert "bool global::".toList := by decide
  unfold signature
  split
  · simp only [String.toList_append]
    exact ((hStart.append hCapability).append (by decide)).append (by decide) |>.append (by decide)
  · decide
  · decide

/-- Before the return statement no line is one. -/
theorem stepsInert_leadingSteps {p : Plan} (hNames : ∀ name ∈ p.names, '\n' ∉ name.toList) :
    StepsInert p.leadingSteps := by
  have hCapability : '\n' ∉ p.capability.toList := hNames _ (by simp [names])
  have hLevels : ∀ l ∈ p.levels, IsInert l.header.toList := by
    intro l hl
    refine isInert_header (hNames _ ?_) fun t ht => hNames _ ?_
    · simp only [names, List.mem_append, List.mem_flatMap]
      exact Or.inl (Or.inr ⟨l, hl, List.mem_cons_self⟩)
    · simp only [names, List.mem_append, List.mem_flatMap]
      exact Or.inl (Or.inr ⟨l, hl, List.mem_cons_of_mem _ ht⟩)
  -- The leading lines are two comments, the namespace if there is one, the header of each level,
  -- and the signature; none of them starts with `return `.
  have hComments :
      StepsInert [.line "// <auto-generated/>", .line "// Generated by fast-validate"] :=
    StepsInert.line (by decide) (StepsInert.line (by decide) fun _ h => absurd h List.not_mem_nil)
  have hNamespace : StepsInert p.namespaceSteps := by
    unfold namespaceSteps
    cases h : p.inNamespace with
    | none => exact fun _ h => absurd h List.not_mem_nil
    | some name =>
      have hName : '\n' ∉ name.toList := hNames _ (by simp [names, h])
      have hStart : IsInert "namespace ".toList := by decide
      refine StepsInert.line ?_ stepsInert_opening
      simp only [String.toList_append]
      exact hStart.append hName
  exact ((hComments.append hNamespace).append (stepsInert_openingSteps hCapability hLevels)).append
    (StepsInert.line (isInert_signature hCapability) stepsInert_opening)

/-- After the return statement there are only closing lines. -/
theorem stepsInert_trailingSteps (p : Plan) : StepsInert p.trailingSteps := by
  have hLevels : StepsInert (p.levels.flatMap fun _ => Layout.closing) := by
    intro text h
    obtain ⟨_, _, h⟩ := List.mem_flatMap.1 h
    exact stepsInert_closing text h
  refine (stepsInert_closing.append hLevels).append ?_
  split
  · exact stepsInert_closing
  · exact fun _ h => absurd h List.not_mem_nil

theorem stepsInert_furtherSteps {cs : List Constraint}
    (hFragments : ∀ c ∈ cs, '\n' ∉ c.fragment.toList) : StepsInert (furtherSteps cs) := by
  have hStart : IsInert "&& ".toList := by decide
  induction cs with
  | nil => exact fun _ h => absurd h List.not_mem_nil
  | cons c rest ih =>
    have hHead := hFragments c List.mem_cons_self
    have hRest := ih fun x hx => hFragments x (List.mem_cons_of_mem _ hx)
    cases rest with
    | nil =>
      refine StepsInert.line ?_ fun _ h => absurd h List.not_mem_nil
      simp only [String.toList_append]
      exact (hStart.append hHead).append (by decide)
    | cons d rest =>
      refine StepsInert.line ?_ hRest
      simp only [String.toList_append]
      exact hStart.append hHead

/-- The return statement starts with the one line that starts with `return `. -/
theorem lines_returnSteps (depth : Nat) {cs : List Constraint}
    (hFragments : ∀ c ∈ cs, '\n' ∉ c.fragment.toList) :
    ∃ first more, Layout.lines depth (returnSteps cs) = ⟨depth, "return " ++ first⟩ :: more ∧
      '\n' ∉ first.toList ∧ ∀ l ∈ more, IsInert l.text.toList := by
  -- The three forms of the statement: `true`, one fragment, and one fragment a line.
  cases cs with
  | nil => exact ⟨"true;", [], rfl, by decide, fun _ h => absurd h List.not_mem_nil⟩
  | cons c rest =>
    have hHead := hFragments c List.mem_cons_self
    cases rest with
    | nil =>
      refine ⟨c.fragment ++ ";", [], ?_, ?_, fun _ h => absurd h List.not_mem_nil⟩
      · rw [← String.append_assoc]
        rfl
      · have hEnd : '\n' ∉ ";".toList := by decide
        simp only [String.toList_append, List.mem_append, hHead, hEnd, or_self, not_false_eq_true]
    | cons d rest =>
      refine ⟨c.fragment, Layout.lines (depth + 1) (furtherSteps (d :: rest) ++ [.shallower]), rfl,
        hHead, ?_⟩
      intro l hl
      have hLine := line_mem_of_mem_lines hl
      rw [List.mem_append, List.mem_singleton] at hLine
      rcases hLine with hLine | hLine
      · exact stepsInert_furtherSteps (fun x hx => hFragments x (List.mem_cons_of_mem _ hx)) _ hLine
      · cases hLine

theorem notMem_conjunctionChars {spaces : Nat} {fragments : List String}
    (h : ∀ f ∈ fragments, ';' ∉ f.toList) : ';' ∉ conjunctionChars spaces fragments := by
  cases fragments with
  | nil => simp [conjunctionChars]
  | cons first others =>
    intro hMem
    rcases List.mem_append.1 hMem with hMem | hMem
    · exact h first List.mem_cons_self hMem
    · obtain ⟨f, hf, hMem⟩ := List.mem_flatMap.1 hMem
      have hOther := h f (List.mem_cons_of_mem _ hf)
      simp [hOther] at hMem

/-- **The reader finds the return expression of a source.** -/
theorem text?_source {p : Plan} (indent : Nat) (hNames : ∀ name ∈ p.names, '\n' ∉ name.toList)
    (hBreaks : ∀ c ∈ p.constraints, '\n' ∉ c.fragment.toList)
    (hEnds : ∀ c ∈ p.constraints, ';' ∉ c.fragment.toList) :
    text? (p.source indent).toList = some (p.expressionChars indent) := by
  obtain ⟨first, more, hLines, hFirst, hMore⟩ := lines_returnSteps p.returnDepth hBreaks
  -- the lines before the return statement, its first line, and all that follow
  set before := (Layout.lines 0 p.leadingSteps).map (Line.chars indent) with hBeforeDef
  set line := Line.chars indent ⟨p.returnDepth, "return " ++ first⟩ with hLineDef
  set after := (more ++ Layout.lines p.returnDepth p.trailingSteps).map (Line.chars indent)
    with hAfterDef
  -- the source is made of these lines
  have hSource : (p.source indent).toList = (before ++ line :: after).flatMap (· ++ ['\n']) := by
    rw [source, Layout.toList_render, steps_eq, Layout.chars, Layout.lines_append,
      Layout.lines_append, depthAfter_returnSteps, ← returnDepth, hLines, hBeforeDef, hLineDef,
      hAfterDef, List.cons_append, ← List.map_cons, ← List.map_append, List.flatMap_map]
  have hInert : ∀ l ∈ Layout.lines 0 p.leadingSteps ++ (more ++
      Layout.lines p.returnDepth p.trailingSteps), IsInert l.text.toList := by
    intro l hl
    rcases List.mem_append.1 hl with hl | hl
    · exact stepsInert_leadingSteps hNames _ (line_mem_of_mem_lines hl)
    · rcases List.mem_append.1 hl with hl | hl
      · exact hMore l hl
      · exact stepsInert_trailingSteps p _ (line_mem_of_mem_lines hl)
  -- the rest of the first line and the lines after it make up the statement
  have hStatement : first.toList ++ '\n' :: after.flatMap (· ++ ['\n']) =
      p.expressionChars indent ++ ';' :: ('\n' :: p.trailingChars indent) := by
    have hReturn := chars_returnSteps indent p.returnDepth p.constraints
    rw [Layout.chars, hLines, List.flatMap_cons, Line.chars, String.toList_append] at hReturn
    simp only [List.append_assoc] at hReturn
    have hBody := List.append_cancel_left (List.append_cancel_left hReturn)
    have hAfter : after.flatMap (· ++ ['\n']) =
        more.flatMap (fun l => l.chars indent ++ ['\n']) ++ p.trailingChars indent := by
      rw [hAfterDef, List.flatMap_map, List.flatMap_append]
      rfl
    calc first.toList ++ '\n' :: after.flatMap (· ++ ['\n'])
        = (first.toList ++ (['\n'] ++ more.flatMap fun l => l.chars indent ++ ['\n'])) ++
            p.trailingChars indent := by
          rw [hAfter]
          simp only [List.append_assoc, List.cons_append, List.nil_append]
      _ = p.expressionChars indent ++ ';' :: ('\n' :: p.trailingChars indent) := by
          rw [hBody]
          simp only [expressionChars, List.append_assoc, List.cons_append, List.nil_append]
  have hExpression : ';' ∉ p.expressionChars indent := by
    refine notMem_conjunctionChars ?_
    intro f hf
    obtain ⟨c, hc, rfl⟩ := List.mem_map.1 hf
    exact hEnds c hc
  rw [hSource]
  refine text?_lines ?_ ?_ ?_ ?_ hStatement hExpression
  · intro l hl
    rcases List.mem_append.1 hl with hl | hl
    · obtain ⟨l, hIn, rfl⟩ := List.mem_map.1 hl
      exact Line.newline_notMem_chars indent (hInert l (List.mem_append_left _ hIn)).1
    · rcases List.mem_cons.1 hl with rfl | hl
      · refine Line.newline_notMem_chars indent ?_
        have hStart : '\n' ∉ "return ".toList := by decide
        simp only [String.toList_append, List.mem_append, hStart, hFirst, or_self,
          not_false_eq_true]
      · obtain ⟨l, hIn, rfl⟩ := List.mem_map.1 hl
        exact Line.newline_notMem_chars indent (hInert l (List.mem_append_right _ hIn)).1
  · intro l hl
    obtain ⟨l, hIn, rfl⟩ := List.mem_map.1 hl
    exact afterReturn?_indented_of_isInert (hInert l (List.mem_append_left _ hIn)) _
  · rw [hLineDef, Line.chars, String.toList_append]
    exact afterReturn?_indented_return _ _
  · intro l hl
    obtain ⟨l, hIn, rfl⟩ := List.mem_map.1 hl
    exact afterReturn?_indented_of_isInert (hInert l (List.mem_append_right _ hIn)) _

/-! ## Reading the expression -/

/-- **A conjunction of fragments is read as the comparisons of its constraints.** -/
theorem ofText?_conjunctionChars (spaces : Nat) {cs : List Constraint}
    {comparisons : Constraint → List Comparison}
    (hComparisons : ∀ c ∈ cs, c.comparisons? = some (comparisons c))
    (hMembers : ∀ c ∈ cs, ∀ ch ∈ c.member.toList, isWordChar ch = true) :
    ofText? (conjunctionChars spaces (cs.map Constraint.fragment)) =
      some (cs.flatMap comparisons) := by
  cases cs with
  | nil => rfl
  | cons c rest =>
    -- the first fragment stands alone, each other one behind a gap and the sign of conjunction
    set phrases := rest.map fun k => (k.fragment.toList, comparisons k) with hPhrases
    set gap := '\n' :: List.replicate spaces ' ' with hGapDef
    have hText : conjunctionChars spaces ((c :: rest).map Constraint.fragment) =
        c.fragment.toList ++ (continuation gap phrases ++ []) := by
      rw [List.map_cons, conjunctionChars, hPhrases, hGapDef, List.append_nil, continuation,
        List.flatMap_map, List.flatMap_map]
      rfl
    -- between two fragments there is a line break and the indentation of the next line
    have hGap : ∀ ch ∈ gap, Text.isBlank ch = true := by
      intro ch hch
      rcases List.mem_cons.1 hch with rfl | hch
      · decide
      · rw [(List.mem_replicate.1 hch).2]
        decide
    have hReads : ∀ p ∈ (c.fragment.toList, comparisons c) :: phrases, Reads group? p.1 p.2 := by
      intro p hp
      obtain ⟨k, hk, rfl⟩ : ∃ k ∈ c :: rest, (k.fragment.toList, comparisons k) = p := by
        rcases List.mem_cons.1 hp with rfl | hp
        · exact ⟨c, List.mem_cons_self, rfl⟩
        · obtain ⟨k, hk, rfl⟩ := List.mem_map.1 hp
          exact ⟨k, List.mem_cons_of_mem _ hk, rfl⟩
      exact Constraint.reads_fragment (hComparisons k hk) (hMembers k hk)
    have hOpen : ∃ body, c.fragment.toList = '(' :: body := by
      cases c <;> simp [Constraint.fragment, Bound.fragment, Range.fragment]
    obtain ⟨body, hBody⟩ := hOpen
    have hFuel : phrases.length <
        (c.fragment.toList ++ (continuation gap phrases ++ [])).length := by
      have hShort := length_le_length_continuation gap phrases
      simp only [hBody, List.length_append, List.length_cons]
      omega
    -- a fragment starts with a parenthesis, so the expression is not `true`
    have hNotTrue : c.fragment.toList ++ (continuation gap phrases ++ []) ≠
        ['t', 'r', 'u', 'e'] := by
      rw [hBody]
      intro h
      exact absurd (List.cons.inj h).1 (by decide)
    have hEnd : ∀ ch ∈ ([] : List Char).head?, ch ≠ '&' ∧ isWordChar ch = false ∧
        Text.isBlank ch = false := by simp
    have hConjunction := conjunction?_phrases hGap hEnd phrases
      (c.fragment.toList, comparisons c) _ hFuel hReads
    rw [hText, ofText?, if_neg hNotTrue, hConjunction, hPhrases]
    simp only [List.map_map, List.flatten_cons, List.flatMap_def]
    rfl

/-! ## Agreement -/

/--
**The generated expression and the evaluation of constraints agree.** Take any plan whose names have
no blanks, whose members' names have no parenthesis, `&` or `;` either, and whose operands are
integers or decimals, and any assignment of integers and decimals to its members. The expression
that the one return statement of its source holds, read from the text and evaluated over the
rational numbers, has the value that `Constraint.evaluate` gives.
-/
theorem source_agrees_with_evaluate {p : Plan} (indent : Nat) {value? : String → Option Operand}
    {number : String → ℚ} (hNames : ∀ name ∈ p.names, ∀ ch ∈ name.toList, Text.isBlank ch = false)
    (hMembers : ∀ c ∈ p.constraints, ∀ ch ∈ c.member.toList, ch ∉ ['(', ')', '&', ';'])
    (hOperands : ∀ c ∈ p.constraints, c.IsExact)
    (hValues : ∀ c ∈ p.constraints, ∃ v, value? c.member = some v ∧
      v.rational? = some (number c.member)) :
    (ofSource? (Artifact.ofPlan indent p).source).map (·.all (Comparison.holds number)) =
      some (Constraint.evaluate p.constraints value?) := by
  have hMemberName : ∀ c ∈ p.constraints, c.member ∈ p.names := fun c hc =>
    List.mem_append_right _ (List.mem_cons_of_mem _ (List.mem_map_of_mem hc))
  -- what the conditions on names mean for the words, the lines and the end of the expression
  have hWords : ∀ c ∈ p.constraints, ∀ ch ∈ c.member.toList, isWordChar ch = true := by
    intro c hc ch hch
    have hBlank := hNames _ (hMemberName c hc) ch hch
    have hMark := hMembers c hc ch hch
    simp only [List.mem_cons, List.not_mem_nil, or_false, not_or] at hMark
    simp [isWordChar, hBlank, hMark]
  have hNoBreak : ∀ name ∈ p.names, '\n' ∉ name.toList := by
    intro name hName hch
    have := hNames name hName _ hch
    exact absurd this (by decide)
  have hBreaks : ∀ c ∈ p.constraints, '\n' ∉ c.fragment.toList := fun c hc =>
    notMem_fragment (hNoBreak _ (hMemberName c hc)) (by decide) (by decide)
  have hEnds : ∀ c ∈ p.constraints, ';' ∉ c.fragment.toList := fun c hc =>
    notMem_fragment (fun h => hMembers c hc _ h (by decide)) (by decide) (by decide)
  have hComparisons : ∀ c ∈ p.constraints, c.comparisons? = some (c.comparisons?.getD []) := by
    intro c hc
    obtain ⟨comparisons, h⟩ := Constraint.exists_comparisons?_of_isExact (hOperands c hc)
    rw [h]
    rfl
  -- reading the source gives the comparisons of all constraints
  have hRead : ofSource? (Artifact.ofPlan indent p).source =
      some (p.constraints.flatMap fun c => c.comparisons?.getD []) := by
    rw [ofSource?, Artifact.ofPlan, text?_source indent hNoBreak hBreaks hEnds, Option.bind_some,
      expressionChars, ofText?_conjunctionChars _ hComparisons hWords]
  rw [hRead, Option.map_some, List.all_flatMap, Constraint.evaluate]
  -- and those of one constraint hold exactly if it admits the value of its member
  have hAgree : ∀ c ∈ p.constraints, ((c.comparisons?.getD []).all (Comparison.holds number)) =
      (value? c.member).any c.admits := by
    intro c hc
    obtain ⟨v, hLookup, hNumber⟩ := hValues c hc
    rw [hLookup, Option.any_some, Constraint.admits_eq_all_holds (hComparisons c hc) hNumber]
  rw [Option.some_inj, Bool.eq_iff_iff, List.all_eq_true, List.all_eq_true]
  exact forall₂_congr fun c hc => by rw [hAgree c hc]

/-- A generic type in another one, with an integer bound and a decimal range on two members. -/
def crate : Plan where
  inNamespace := some "Depot.Goods"
  levels := [⟨.classType, "Shelf", ["TKey", "TValue"]⟩, ⟨.recordStruct, "Crate", []⟩]
  capability := "FastValidate.IFastValidatable"
  mode := .fresh
  constraints :=
    [.bound ⟨"Weight", .integer .uint64 200 (by decide), .less, true⟩,
     .range ⟨"Width", .integer .int32 (-3) (by decide),
      .decimal ⟨false, 250, 2, by decide, by decide, by decide⟩⟩]

/-- The agreement at a concrete plan: the members have the values 200 and 1.5, and both accounts
say that the constraints hold. -/
theorem crate_source_agrees_with_evaluate :
    (ofSource? (Artifact.ofPlan 4 crate).source).map
        (·.all (Comparison.holds fun m => if m = "Weight" then 200 else 3 / 2)) =
      some (Constraint.evaluate crate.constraints fun m =>
        if m = "Weight" then some (.integer .int32 200 (by decide))
        else some (.decimal ⟨false, 15, 1, by decide, by decide, by decide⟩)) := by
  have hNames :
      (crate.names.all fun name => name.toList.all fun ch => !Text.isBlank ch) = true := by decide
  have hMembers : (crate.constraints.all fun c => c.member.toList.all fun ch =>
      !(['(', ')', '&', ';'].contains ch)) = true := by decide
  refine source_agrees_with_evaluate 4 (fun name hName ch hch => ?_) (fun c hc ch hch => ?_) ?_ ?_
  · have hPlain := List.all_eq_true.1 (List.all_eq_true.1 hNames name hName) ch hch
    simpa using hPlain
  · have hPlain := List.all_eq_true.1 (List.all_eq_true.1 hMembers c hc) ch hch
    simpa using hPlain
  · simp [crate, Constraint.IsExact, Constraint.operands, Operand.IsExact, Operand.kind]
  · simp [crate, Constraint.member, Operand.rational?, Number.Decimal.signedMantissa]
    norm_num

end Plan

end ValidatorGen

import ValidatorGen.Generation.Plan

/-!
# The text of a generated source

A source is laid out as steps, and its text is computed from them. Here the text is taken apart
again at the one place where constraints enter it: everything before and after the return
expression depends on the rest of the plan only.

A layout is a list of steps, of which two change the depth of those after them. So a part of a
layout makes the same text wherever it stands only if it starts at the same depth, which is what
`Layout.chars_append` keeps track of. The return statement raises the depth for the lines after its
first one and lowers it again, so the steps behind it start where it did.

Main results:

* `Plan.steps_eq` — the layout is that of the return statement between two others;
* `Plan.toList_source` — the text of a source is a leading part, `return `, the expression, and a
  trailing part, where the expression is made of the fragments alone;
* `Plan.toList_source_withConstraints` — the two parts are the same whatever the constraints are.
-/

namespace ValidatorGen

open Generation

/-! ## Text of a layout -/

namespace Generation

/-- A line without its line end. -/
def Line.chars (indent : Nat) (l : Line) : List Char :=
  List.replicate (l.depth * indent) ' ' ++ l.text.toList

/-- Indentation does not end a line. -/
theorem Line.newline_notMem_chars {l : Line} (indent : Nat) (h : '\n' ∉ l.text.toList) :
    '\n' ∉ l.chars indent := by
  intro hMem
  rcases List.mem_append.1 hMem with hSpace | hText
  · exact absurd (List.mem_replicate.1 hSpace).2 (by decide)
  · exact h hText

/-- The text that steps make, starting at a depth. -/
def Layout.chars (indent depth : Nat) (steps : List Step) : List Char :=
  (lines depth steps).flatMap fun l => l.chars indent ++ ['\n']

theorem toList_pushn (c : Char) (n : Nat) : ("".pushn c n).toList = List.replicate n c := by
  rw [String.pushn_eq_repeat_push]
  induction n with
  | zero => rfl
  | succ n ih => rw [Nat.repeat, String.toList_push, ih, List.replicate_succ']

theorem Line.toList_render (indent : Nat) (l : Line) :
    (l.render indent).toList = l.chars indent ++ ['\n'] := by
  rw [render, String.toList_append, String.toList_append, toList_pushn]
  rfl

namespace Layout

theorem toList_render (indent : Nat) (steps : List Step) :
    (render indent steps).toList = chars indent 0 steps := by
  rw [render, String.toList_join, List.flatMap_map]
  exact congrArg (List.flatMap · (lines 0 steps)) (funext (Line.toList_render indent))

@[simp]
theorem chars_nil (indent depth : Nat) : chars indent depth [] = [] := rfl

theorem chars_line (indent depth : Nat) (text : String) (rest : List Step) :
    chars indent depth (.line text :: rest) =
      Line.chars indent ⟨depth, text⟩ ++ '\n' :: chars indent depth rest := by
  simp [chars, lines]

theorem chars_deeper (indent depth : Nat) (rest : List Step) :
    chars indent depth (.deeper :: rest) = chars indent (depth + 1) rest := rfl

theorem chars_shallower (indent depth : Nat) (rest : List Step) :
    chars indent depth (.shallower :: rest) = chars indent (depth - 1) rest := rfl

theorem chars_append (indent depth : Nat) (a b : List Step) :
    chars indent depth (a ++ b) =
      chars indent depth a ++ chars indent (depthAfter depth a) b := by
  rw [chars, lines_append, List.flatMap_append]
  rfl

theorem depthAfter_append (depth : Nat) (a b : List Step) :
    depthAfter depth (a ++ b) = depthAfter (depthAfter depth a) b := by
  induction a generalizing depth with
  | nil => rfl
  | cons step rest ih => cases step <;> exact ih _

end Layout

end Generation

namespace Plan

/-! ## The return statement -/

/-- The text of a conjunction whose lines after the first one start with `&&` after so many spaces.
Without fragments the expression is `true`. -/
def conjunctionChars (spaces : Nat) : List String → List Char
  | [] => "true".toList
  | first :: others =>
    first.toList ++ others.flatMap fun f =>
      '\n' :: (List.replicate spaces ' ' ++ '&' :: '&' :: ' ' :: f.toList)

theorem depthAfter_furtherSteps (depth : Nat) (cs : List Constraint) :
    Layout.depthAfter depth (furtherSteps cs) = depth := by
  induction cs with
  | nil => rfl
  | cons c rest ih =>
    cases rest with
    | nil => rfl
    | cons d rest => exact ih

/-- The lines after the first one of a conjunction, read from the end of the line before. By
induction on the constraints that are left, of which the last one brings the semicolon. -/
theorem chars_furtherSteps (indent depth : Nat) {cs : List Constraint} (h : cs ≠ []) :
    '\n' :: Layout.chars indent depth (furtherSteps cs) =
      (cs.map Constraint.fragment).flatMap (fun f =>
        '\n' :: (List.replicate (depth * indent) ' ' ++ '&' :: '&' :: ' ' :: f.toList)) ++
      [';', '\n'] := by
  induction cs with
  | nil => exact absurd rfl h
  | cons c rest ih =>
    cases rest with
    | nil => simp [furtherSteps, Layout.chars_line, Line.chars]
    | cons d rest =>
      -- the line end that closes this line is the one that the next fragment is read with
      rw [furtherSteps, Layout.chars_line, List.map_cons, List.flatMap_cons, List.append_assoc,
        ← ih (List.cons_ne_nil d rest)]
      · simp [Line.chars]
      · exact fun h => List.cons_ne_nil d rest h

/-- The text of the return statement: its fragments make up the expression. -/
theorem chars_returnSteps (indent depth : Nat) (cs : List Constraint) :
    Layout.chars indent depth (returnSteps cs) =
      List.replicate (depth * indent) ' ' ++ ("return ".toList ++
        (conjunctionChars ((depth + 1) * indent) (cs.map Constraint.fragment) ++ [';', '\n'])) := by
  cases cs with
  | nil =>
    have hText : "return true;".toList ++ ['\n'] =
        "return ".toList ++ ("true".toList ++ [';', '\n']) := by decide
    rw [returnSteps, Layout.chars_line, Line.chars, Layout.chars_nil, List.append_assoc, hText]
    rfl
  | cons c rest =>
    cases rest with
    | nil => simp [returnSteps, Layout.chars_line, Line.chars, conjunctionChars]
    | cons d rest =>
      have hFurther := chars_furtherSteps indent (depth + 1) (List.cons_ne_nil d rest)
      -- the first fragment stands behind `return `, the others one step deeper
      have hStatement : Layout.chars indent depth (returnSteps (c :: d :: rest)) =
          Line.chars indent ⟨depth, "return " ++ c.fragment⟩ ++
            '\n' :: Layout.chars indent (depth + 1) (furtherSteps (d :: rest)) := by
        rw [returnSteps, Layout.chars_line, Layout.chars_deeper, Layout.chars_append,
          Layout.chars_shallower, Layout.chars_nil, List.append_nil]
        exact fun h => List.cons_ne_nil d rest h
      rw [hStatement, hFurther, Line.chars, String.toList_append]
      simp only [List.map_cons, conjunctionChars, List.append_assoc]

theorem depthAfter_returnSteps (depth : Nat) (cs : List Constraint) :
    Layout.depthAfter depth (returnSteps cs) = depth := by
  cases cs with
  | nil => rfl
  | cons c rest =>
    cases rest with
    | nil => rfl
    | cons d rest =>
      rw [returnSteps, Layout.depthAfter, Layout.depthAfter, Layout.depthAfter_append,
        depthAfter_furtherSteps]
      · rfl
      · exact fun h => List.cons_ne_nil d rest h

/-! ## Around the return statement -/

/-- The steps that open the namespace, if there is one. -/
def namespaceSteps (p : Plan) : List Step :=
  match p.inNamespace with
  | some name => .line ("namespace " ++ name) :: Layout.opening
  | none => []

/-- The steps before the return statement. They open the namespace, the levels and the method. -/
def leadingSteps (p : Plan) : List Step :=
  [.line "// <auto-generated/>", .line "// Generated by fast-validate"] ++ p.namespaceSteps ++
  p.openingSteps p.levels ++ .line p.signature :: Layout.opening

/-- The steps after the return statement. -/
def trailingSteps (p : Plan) : List Step :=
  Layout.closing ++ p.levels.flatMap (fun _ => Layout.closing) ++
    (if p.inNamespace.isSome then Layout.closing else [])

/-- The layout of a file is that of the return statement between two others. -/
theorem steps_eq (p : Plan) :
    p.steps = p.leadingSteps ++ (returnSteps p.constraints ++ p.trailingSteps) := by
  unfold steps leadingSteps namespaceSteps methodSteps trailingSteps
  cases p.inNamespace <;> simp only [List.append_assoc, List.cons_append]

/-- How deep the return statement is nested. It is decided by what comes before the statement. -/
def returnDepth (p : Plan) : Nat :=
  Layout.depthAfter 0 p.leadingSteps

/-- The text before the return statement. The indentation of the statement belongs to it. -/
def leadingChars (indent : Nat) (p : Plan) : List Char :=
  Layout.chars indent 0 p.leadingSteps ++ List.replicate (p.returnDepth * indent) ' '

/-- The text after the return statement and the line it ends on. -/
def trailingChars (indent : Nat) (p : Plan) : List Char :=
  Layout.chars indent p.returnDepth p.trailingSteps

/-- The text of the return expression. -/
def expressionChars (indent : Nat) (p : Plan) : List Char :=
  conjunctionChars ((p.returnDepth + 1) * indent) (p.constraints.map Constraint.fragment)

/-- **A source is its return expression with text around it** that does not depend on the
constraints. -/
theorem toList_source (indent : Nat) (p : Plan) :
    (p.source indent).toList =
      p.leadingChars indent ++ ("return ".toList ++
        (p.expressionChars indent ++ ';' :: '\n' :: p.trailingChars indent)) := by
  rw [source, Layout.toList_render, steps_eq, Layout.chars_append, Layout.chars_append,
    depthAfter_returnSteps, ← returnDepth, chars_returnSteps]
  simp only [leadingChars, expressionChars, trailingChars, List.append_assoc, List.cons_append,
    List.nil_append]

/-! ## The same text around other constraints -/

/-- What opens the levels does not depend on the constraints. -/
theorem openingSteps_withConstraints (p : Plan) (cs : List Constraint) (levels : List Level) :
    openingSteps { p with constraints := cs } levels = p.openingSteps levels := by
  induction levels with
  | nil => rfl
  | cons l rest ih =>
    cases rest with
    | nil => rfl
    | cons m rest =>
      rw [openingSteps, ih]
      · rfl
      · exact List.cons_ne_nil m rest

theorem leadingSteps_withConstraints (p : Plan) (cs : List Constraint) :
    leadingSteps { p with constraints := cs } = p.leadingSteps := by
  unfold leadingSteps
  rw [openingSteps_withConstraints]
  rfl

/-- **Plans that differ in their constraints have sources that differ in the return expression.**
What stands before the expression and after it is the same text. -/
theorem toList_source_withConstraints (indent : Nat) (p : Plan) (cs : List Constraint) :
    (source indent { p with constraints := cs }).toList =
      p.leadingChars indent ++ ("return ".toList ++
        (conjunctionChars ((p.returnDepth + 1) * indent) (cs.map Constraint.fragment) ++
          ';' :: '\n' :: p.trailingChars indent)) := by
  have hSource := toList_source indent { p with constraints := cs }
  rw [leadingChars, expressionChars, trailingChars, returnDepth,
    leadingSteps_withConstraints] at hSource
  exact hSource

end Plan

end ValidatorGen

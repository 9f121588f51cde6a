/-!
# Layout of generated source

Source is laid out as a list of steps: a line of text, or a change of depth for the lines that
follow. Each line is indented by its depth, and each one is ended, the last one too. Depth cannot
become negative: a step back from depth zero changes nothing.

Steps do not know their depth. So parts of a layout can be put one after the other, or inside each
other, without being changed; `lines_append` says what that means for the lines.

Depth and indentation are natural numbers: that the spaces of a line can be counted in a machine
word, and that the source fits in memory, is taken for granted.
-/

namespace ValidatorGen.Generation

/-- A step of a layout. -/
inductive Step where
  | line (text : String)
  | deeper
  | shallower
  deriving Repr, DecidableEq

/-- A line of source at a depth. -/
structure Line where
  depth : Nat
  text : String
  deriving Repr, DecidableEq

namespace Layout

/-- The lines that steps make, starting at a depth. -/
def lines (depth : Nat) : List Step → List Line
  | [] => []
  | .line text :: rest => ⟨depth, text⟩ :: lines depth rest
  | .deeper :: rest => lines (depth + 1) rest
  | .shallower :: rest => lines (depth - 1) rest

/-- The depth after steps. -/
def depthAfter (depth : Nat) : List Step → Nat
  | [] => depth
  | .line _ :: rest => depthAfter depth rest
  | .deeper :: rest => depthAfter (depth + 1) rest
  | .shallower :: rest => depthAfter (depth - 1) rest

theorem lines_append (depth : Nat) (a b : List Step) :
    lines depth (a ++ b) = lines depth a ++ lines (depthAfter depth a) b := by
  induction a generalizing depth with
  | nil => rfl
  | cons step rest ih => cases step <;> simp [lines, depthAfter, ih]

/-- Opens a block. -/
def opening : List Step :=
  [.line "\x7b", .deeper]

/-- Closes a block. -/
def closing : List Step :=
  [.shallower, .line "\x7d"]

end Layout

/-- The text of a line, with so many spaces for each level and a line end. -/
def Line.render (indent : Nat) (l : Line) : String :=
  "".pushn ' ' (l.depth * indent) ++ l.text ++ "\n"

/-- The source that steps make. -/
def Layout.render (indent : Nat) (steps : List Step) : String :=
  String.join ((lines 0 steps).map (Line.render indent))

end ValidatorGen.Generation

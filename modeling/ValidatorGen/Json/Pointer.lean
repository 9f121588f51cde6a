import ValidatorGen.Json.Basic
import ValidatorGen.Text.Lines

/-!
# Pointers into documents

A pointer is a sequence of steps, each after a slash. In a step, `~1` stands for a slash and `~0`
for a tilde. The empty pointer leads to the whole document, and a text that is not empty and does
not start with a slash is no pointer and leads nowhere.
-/

namespace ValidatorGen.Json

/-- The name that a step stands for. -/
def unescapeStep : List Char → List Char
  | '~' :: '1' :: rest => '/' :: unescapeStep rest
  | '~' :: '0' :: rest => '~' :: unescapeStep rest
  | c :: rest => c :: unescapeStep rest
  | [] => []

/-- The index a step stands for: digits without a needless zero in front, and at most 64 bits. -/
def stepIndex? (step : List Char) : Option Nat :=
  if step = [] ∨ !step.all Char.isDigit ∨ (step.head? = some '0' ∧ step.length ≠ 1) then none
  else
    let i := step.foldl (fun n c => 10 * n + (c.toNat - '0'.toNat)) 0
    if i < 0x10000000000000000 then some i else none

/-- One step into a value. The same step is a name in an object and an index in a list. -/
def step? (value : Json) (step : List Char) : Option Json :=
  match value with
  | .object members => lookup? (String.ofList step) members
  | .array items => (stepIndex? step).bind fun i => items[i]?
  | _ => none

/-- The value that a pointer leads to. -/
def at? (value : Json) (pointer : String) : Option Json :=
  match Text.splitOn '/' pointer.toList with
  | [[]] => some value
  | [] :: steps => steps.foldlM (fun value step => value.step? (unescapeStep step)) value
  | _ => none

end ValidatorGen.Json

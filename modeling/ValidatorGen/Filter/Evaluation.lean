import ValidatorGen.Filter.Parser
import ValidatorGen.Json.Written

/-!
# Running filters

A filter gives a list of outputs, each of which may be a failure. A failure among the inputs of a
step is an output of that step. Only a list of all outputs, and a run of the whole filter, end with
the first failure.

A path can also be used to change a value: what it leads to is replaced by the first output of a
change, or taken away if the change has none.

* `Filter.eval` — the outputs of a filter on a value;
* `Filter.update` — the value with what a path leads to changed;
* `Filter.run` — a filter in a text on a document, with outputs that are documents again.

Evaluation is structural in the filter. Outputs are lists, not streams, so a run computes all of
them before the first is used; a failure still shows where it would.
-/

namespace ValidatorGen.Filter

namespace Value

/-! ## Looking up -/

/-- The place in a list of `n` items that an index means; negative ones count from the end. -/
def position? (n : Nat) (i : Int) : Option Nat :=
  let i := if i < 0 then i + n else i
  if 0 ≤ i ∧ i < n then some i.toNat else none

/-- What a key leads to: an item by its index, a member by its name. What is not there is null. -/
def valueAt (v key : Value) : Output :=
  match v, key with
  | .array items, .integer i =>
    .ok (((position? items.length i).bind (items[·]?)).getD .null)
  | .object members, .string name => .ok ((lookup? name members).getD .null)
  | _, _ => .error .notIndexable

/-- The place between the items of a list of `n` that the end of a slice means. -/
def clip (n : Nat) (i : Int) : Nat :=
  (if i < 0 then i + n else i).toNat.min n

/-- An end of a slice: nothing stands for the end of the list. -/
def edge (n : Nat) (default : Nat) : Option Value → Except Fault Nat
  | none => .ok default
  | some (.integer i) => .ok (clip n i)
  | some _ => .error .notSliceable

/-- The first item of a slice, and the number of its items. -/
def extent (n : Nat) (lower upper : Option Value) : Except Fault (Nat × Nat) := do
  let first ← edge n 0 lower
  let last ← edge n n upper
  return (first, last - first)

/-- A slice of a list or a text. -/
def between (v : Value) (lower upper : Option Value) : Output :=
  match v with
  | .array items => do
    let (first, count) ← extent items.length lower upper
    return .array ((items.drop first).take count)
  | .string s => do
    let (first, count) ← extent s.length lower upper
    return .string (String.ofList ((s.toList.drop first).take count))
  | _ => .error .notSliceable

/-! ## Changing -/

/-- The first of some outputs. -/
def first? (outputs : List Output) : Except Fault (Option Value) :=
  match outputs with
  | [] => .ok none
  | output :: _ => output.map some

/-- The value as it was, if failures are to be passed over. -/
def orKeep (v : Value) (lenient : Bool) (fault : Fault) : Output :=
  if lenient then .ok v else .error fault

/-- The value with the item or the member of a key changed. -/
def changeAt (v key : Value) (lenient : Bool) (change : Value → List Output) : Output :=
  match v, key with
  | .array items, .integer i =>
    match position? items.length i with
    | none => v.orKeep lenient .outOfBounds
    | some place => do
      match ← first? (change ((items[place]?).getD .null)) with
      | some new => return .array (items.set place new)
      | none => return .array (items.eraseIdx place)
  | .object members, .string name => do
    match ← first? (change ((lookup? name members).getD .null)) with
    | some new => return .object (insert name new members)
    | none => return .object (remove name members)
  | _, _ => v.orKeep lenient .notIndexable

/-- The items of a list value. -/
def items : Value → Except Fault (List Value)
  | .array items => .ok items
  | _ => .error .badOperands

/-- The value with a slice changed as a whole. -/
def changeBetween (v : Value) (lower upper : Option Value) (lenient : Bool)
    (change : Value → List Output) : Output :=
  match v with
  | .array all =>
    match extent all.length lower upper with
    | .error fault => v.orKeep lenient fault
    | .ok (first, count) => do
      let new ← match ← first? (change (.array ((all.drop first).take count))) with
        | some new => items new
        | none => pure []
      return .array (all.take first ++ new ++ all.drop (first + count))
  | _ => v.orKeep lenient .notSliceable

/-- The members with changed values; those without a new value are left out. -/
def changeMembers (change : Value → List Output) :
    List (String × Value) → Except Fault (List (String × Value))
  | [] => .ok []
  | (name, value) :: rest => do
    let new ← first? (change value)
    let others ← changeMembers change rest
    match new with
    | some new => return (name, new) :: others
    | none => return others

/-- The value with every item or member changed. -/
def changeEvery (v : Value) (lenient : Bool) (change : Value → List Output) : Output :=
  match v with
  | .array items => do return .array (← (items.flatMap change).mapM id)
  | .object members => do return .object (← changeMembers change members)
  | _ => v.orKeep lenient .notIterable

/-! ## Operations -/

def apply : Operation → Value → Value → Output
  | .add => add
  | .subtract => subtract
  | .multiply => multiply

def satisfies (comparison : Comparison) (a b : Value) : Bool :=
  let order := a.order b
  match comparison with
  | .equal => order.isEq
  | .notEqual => order.isNe
  | .less => order.isLT
  | .lessOrEqual => order.isLE
  | .greater => order.isGT
  | .greaterOrEqual => order.isGE

def get : Property → Value → Output
  | .length, v => v.length
  | .keys, v => v.keys
  | .type, v => .ok (.string v.typeName)
  | .total, v => v.sum

/-- An object with one member. -/
def single (name value : Value) : Output :=
  match name with
  | .string name => .ok (.object [(name, value)])
  | _ => .error .notIndexable

end Value

/-! ## Outputs -/

/-- The outputs of a step on every input; inputs that failed are outputs that failed. -/
def each (inputs : List Output) (step : Value → List Output) : List Output :=
  inputs.flatMap fun
    | .ok v => step v
    | .error fault => [.error fault]

/-- All pairs of outputs, the left one changing last. -/
def pairs (left right : List Output) (combine : Value → Value → Output) : List Output :=
  left.flatMap fun a => right.map fun b => do combine (← a) (← b)

/-- Leaves out a failure if failures are to be passed over. -/
def looked (lenient : Bool) : Output → List Output
  | .ok v => [.ok v]
  | .error fault => if lenient then [] else [.error fault]

/-- Whether an output is a value that holds or a failure. -/
def isKept : Output → Bool
  | .ok v => v.holds
  | .error _ => true

/-- Changes a value with one key after the other. -/
def inTurn {α : Type} (keys : List (Except Fault α)) (change : α → Value → Output)
    (v : Value) : Output :=
  keys.foldlM (fun v key => do change (← key) v) v

/-- The pairs of the ends of a slice. -/
def edges (lower upper : List (Except Fault (Option Value))) :
    List (Except Fault (Option Value × Option Value)) :=
  lower.flatMap fun a => upper.map fun b => do return (← a, ← b)

mutual

/-- The outputs of a filter. -/
def eval (v : Value) : Filter → List Output
  | .identity => [.ok v]
  | .literal value => [.ok value]
  | .empty => []
  | .raise => [.error .raised]
  | .property p => [Value.get p v]
  | .has key => each (eval v key) fun key => [(v.has key).map .bool]
  | .array items => [do return .array (← (eval v items).mapM id)]
  | .object name value => pairs (eval v name) (eval v value) Value.single
  | .negate f => (eval v f).map fun output => output.bind Value.negate
  | .calculate operation left right => pairs (eval v left) (eval v right) (Value.apply operation)
  | .compare comparison left right =>
    pairs (eval v left) (eval v right) fun a b => .ok (.bool (a.satisfies comparison b))
  | .both left right =>
    -- `and` and `or` evaluate their right side only where the left one has not decided, and once
    -- for each output of the left side.
    each (eval v left) fun a =>
      if a.holds then (eval v right).map fun output => output.map fun b => .bool b.holds
      else [.ok (.bool false)]
  | .either left right =>
    each (eval v left) fun a =>
      if a.holds then [.ok (.bool true)]
      else (eval v right).map fun output => output.map fun b => .bool b.holds
  | .pipe left right => each (eval v left) fun w => eval w right
  | .comma left right => eval v left ++ eval v right
  | .otherwise left right =>
    -- A fault on the left is kept as an output that holds is, and hides the right side.
    match (eval v left).filter isKept with
    | [] => eval v right
    | kept => kept
  | .choose condition yes no =>
    each (eval v condition) fun c => if c.holds then eval v yes else eval v no
  | .attempt f => (eval v f).filter fun output => output.isOk
  | .index base key lenient =>
    each (eval v base) fun w =>
      each (eval v key) fun key => looked lenient (w.valueAt key)
  | .slice base lower upper lenient =>
    each (eval v base) fun w =>
      (edges (evalEdge v lower) (evalEdge v upper)).flatMap fun
        | .ok (lower, upper) => looked lenient (w.between lower upper)
        | .error fault => [.error fault]
  | .every base lenient =>
    each (eval v base) fun w =>
      match w.values with
      | .ok values => values.map .ok
      | .error fault => if lenient then [] else [.error fault]
  | .assign path value =>
    -- The new values are outputs for the whole input, so each gives one updated copy of it.
    each (eval v value) fun new => update (fun _ => [.ok new]) v path
  | .delete path => update (fun _ => []) v path

/-- The ends of a slice. -/
def evalEdge (v : Value) : Edge → List (Except Fault (Option Value))
  | .unset => [.ok none]
  | .placed position => (eval v position).map fun output => output.map some

/-- The value with what a path leads to changed. -/
def update (change : Value → List Output) (v : Value) : Filter → List Output
  | .identity => change v
  | .empty => [.ok v]
  | .pipe left right => update (fun w => update change w right) v left
  | .comma left right => each (update change v left) fun w => update change w right
  | .otherwise left right =>
    if (eval v left).any isKept then update change v left else update change v right
  | .choose condition yes no =>
    each (eval v condition) fun c => if c.holds then update change v yes else update change v no
  | .index base key lenient =>
    let keys := eval v key
    update (fun w => [inTurn keys (fun key w => w.changeAt key lenient change) w]) v base
  | .slice base lower upper lenient =>
    let slices := edges (evalEdge v lower) (evalEdge v upper)
    update (fun w =>
      [inTurn slices (fun s w => w.changeBetween s.1 s.2 lenient change) w]) v base
  | .every base lenient => update (fun w => [w.changeEvery lenient change]) v base
  | _ => [.error .notAPath]

end

/-! ## Documents -/

/-- Why a filter has no outputs for a document. -/
inductive Problem where
  | malformed (fault : SyntaxFault)
  | failed (fault : Fault)
  | unreadable (fault : Json.Fault)

def Problem.message : Problem → String
  | .malformed fault => fault.message
  | .failed fault => fault.message
  | .unreadable fault => fault.message

/-- The document that a value stands for, which is the one that its text is read as. -/
def document (v : Value) : Except Problem Json :=
  (Json.parse v.text).mapError .unreadable

/-- The outputs of a filter for a document. -/
def run (filter : String) (input : Json) : Except Problem (List Json) := do
  let f ← (ofText filter).mapError .malformed
  (eval (.ofJson input) f).mapM fun output => do
    document (← output.mapError .failed)

end ValidatorGen.Filter

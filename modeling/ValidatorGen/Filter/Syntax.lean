import ValidatorGen.Filter.Value

/-!
# Filters

A filter takes a value to any number of outputs. The values of a path are taken one by one: the
part that is looked up may itself be given by a filter, which then gets the value that the whole
path is taken of.

The forms that are shorthands for others have no constructor here; they are the definitions at the
end. What is covered is the part of the language that selects, builds and changes values: no
variables, no definitions, no folds, and of the named functions those in the parser's table.
-/

namespace ValidatorGen

namespace Filter

/-- What is known of a value without looking anything up in it. -/
inductive Property where
  | length
  | keys
  | type
  /-- All items added up. -/
  | total
  deriving Repr, DecidableEq

/-- What is computed with two values. -/
inductive Operation where
  | add
  | subtract
  | multiply
  deriving Repr, DecidableEq

/-- How two values are compared. Any two values can be. -/
inductive Comparison where
  | equal
  | notEqual
  | less
  | lessOrEqual
  | greater
  | greaterOrEqual
  deriving Repr, DecidableEq

end Filter

mutual

/-- A filter. -/
inductive Filter where
  /-- The value itself. -/
  | identity
  | literal (value : Filter.Value)
  /-- No output. -/
  | empty
  /-- Fails. -/
  | raise
  | property (p : Filter.Property)
  /-- Whether a list or an object has what a filter names. -/
  | has (key : Filter)
  /-- One list of all outputs of a filter. -/
  | array (items : Filter)
  /-- An object with one member. -/
  | object (name value : Filter)
  | negate (f : Filter)
  | calculate (operation : Filter.Operation) (left right : Filter)
  | compare (comparison : Filter.Comparison) (left right : Filter)
  | both (left right : Filter)
  | either (left right : Filter)
  /-- The outputs of `right` on every output of `left`. -/
  | pipe (left right : Filter)
  /-- The outputs of `left`, and then those of `right`. -/
  | comma (left right : Filter)
  /-- The outputs of `left` that hold, or those of `right` if there are none. -/
  | otherwise (left right : Filter)
  | choose (condition yes no : Filter)
  /-- Leaves out what fails. -/
  | attempt (f : Filter)
  /-- What a key leads to; with `lenient`, a lookup that fails gives nothing. -/
  | index (base key : Filter) (lenient : Bool)
  | slice (base : Filter) (lower upper : Filter.Edge) (lenient : Bool)
  /-- All items or values. -/
  | every (base : Filter) (lenient : Bool)
  /-- The value with what is found at a path replaced by an output of `value`. -/
  | assign (path value : Filter)
  /-- The value without what is found at a path. -/
  | delete (path : Filter)

/-- One end of a slice. -/
inductive Filter.Edge where
  | unset
  | placed (position : Filter)

end

namespace Filter

instance : Inhabited Filter := ⟨.identity⟩

/-! ## Shorthands -/

def not : Filter :=
  .choose .identity (.literal (.bool false)) (.literal (.bool true))

/-- The value, as often as the condition holds of it. -/
def select (condition : Filter) : Filter :=
  .choose condition .identity .empty

/-- The list of what `f` makes of the items. -/
def map (f : Filter) : Filter :=
  .array (.pipe (.every .identity false) f)

/-- The value if it is of a type with this name. -/
def ofType (name : String) : Filter :=
  select (.compare .equal (.property .type) (.literal (.string name)))

/-- An object of many members. -/
def record : List (Filter × Filter) → Filter
  | [] => .literal (.object [])
  | (name, value) :: rest =>
    rest.foldl (fun f member => .calculate .add f (.object member.1 member.2)) (.object name value)

end Filter

end ValidatorGen

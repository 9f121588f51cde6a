import ValidatorGen.Json.Fault

/-!
# Shapes of documents

A schema gives the record types of a document; records may contain each other. A field that is
missing takes its default, and one without default is required. Fields that are not of the record
are faults.

A document that has a shape is *completed*: every record becomes an object that has all fields in
the order of their declaration, and every choice becomes a name. What reads a record afterwards
can therefore take fields by name without a default of its own.

Shapes are data, so there is one reader for every format: `Schema.conform` for documents that are
values already, `Schema.read` for documents in texts. The two are written apart because they find
faults in different orders; that they accept the same documents is a theorem about both.
-/

namespace ValidatorGen

/-- What a value has to be. `ρ` names the record types. -/
inductive Shape (ρ : Type) where
  | anything
  | text
  | optionalText
  | flag
  /-- A whole number below a bound, and the name of the type of such numbers. -/
  | natural (type : String) (bound : Nat)
  | oneOf (names : List String)
  | listOf (item : Shape ρ)
  /-- An object with any members. -/
  | members
  | record (type : ρ)
  deriving Repr

/-- A field of a record. A default is a completed value, and a field without one is required. -/
structure Field (ρ : Type) where
  name : String
  shape : Shape ρ
  default : Option Json

/-- A record type: its title in messages and its fields. -/
structure RecordType (ρ : Type) where
  title : String
  fields : List (Field ρ)

/-- The record types of a document. -/
abbrev Schema (ρ : Type) := ρ → RecordType ρ

namespace RecordType

variable {ρ : Type}

/-- The field of a name. -/
def field? (type : RecordType ρ) (name : String) : Option (Field ρ) :=
  type.fields.find? (·.name = name)

/-- The names of the fields, in order. -/
def names (type : RecordType ρ) : List String :=
  type.fields.map Field.name

/-- How the type is named where a value is not of it. -/
def expected (type : RecordType ρ) : String :=
  "struct " ++ type.title

/-- How the type is named where a list has too few elements for it. -/
def expectedElements (type : RecordType ρ) : String :=
  let count := type.fields.length
  type.expected ++ " with " ++ count.repr ++ (if count = 1 then " element" else " elements")

/-- Fields in order, each with the value that was read or its default; or the first required field
that was not read, and how many fields precede it. -/
def fill (read : List (String × Json)) (index : Nat) :
    List (Field ρ) → Except (Nat × String) (List (String × Json))
  | [] => .ok []
  | field :: rest =>
    match Json.lookup? field.name read, field.default with
    | some value, _ | none, some value =>
      (fill read (index + 1) rest).map ((field.name, value) :: ·)
    | none, none => .error (index, field.name)

/-- The completed record, from the members of an object. -/
def ofMembers (type : RecordType ρ) (read : List (String × Json)) : Except Json.ShapeCause Json :=
  match fill read 0 type.fields with
  | .ok members => .ok (.object members)
  | .error (_, name) => .error (.missingField name)

/-- The completed record, from the elements of a list. A list may be shorter than the record when
the fields that are left over have defaults. -/
def ofElements (type : RecordType ρ) (read : List (String × Json)) : Except Json.ShapeCause Json :=
  match fill read 0 type.fields with
  | .ok members => .ok (.object members)
  | .error (index, _) => .error (.wrongLength index type.expectedElements)

end RecordType

namespace Shape

variable {ρ : Type}

/-- How the shape is named where a value does not have it. -/
def expected (schema : Schema ρ) : Shape ρ → String
  | .anything => "any value"
  | .text | .optionalText => "a string"
  | .flag => "a boolean"
  | .natural type _ => type
  | .oneOf _ => "string or map"
  | .listOf _ => "a sequence"
  | .members => "a map"
  | .record type => (schema type).expected

/-- A scalar that is to have the shape. An integer of the wrong range is a wrong value, one that is
written with a fraction a wrong type. -/
def ofScalar (schema : Schema ρ) (shape : Shape ρ) (value : Json.Scalar) :
    Except Json.ShapeCause Json :=
  match shape, value with
  | .anything, _ | .text, .string _ | .optionalText, .string _ | .optionalText, .null
  | .flag, .bool _ => .ok (.ofScalar value)
  | .natural type bound, .number n@(.integer i _) =>
    if 0 ≤ i ∧ i < bound then .ok (.number n) else .error (.wrongValue (.scalar value) type)
  | .oneOf names, .string name =>
    if name ∈ names then .ok (.string name) else .error (.unknownVariant name names)
  | _, _ => .error (.wrongType (.scalar value) (shape.expected schema))

end Shape

end ValidatorGen

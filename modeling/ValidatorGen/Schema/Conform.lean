import ValidatorGen.Schema.Basic

/-!
# Documents of a shape, as values

A document that is already a JSON value is checked against a shape and completed. The faults are
found in the order of the document; that a field is missing is found at the end of its record.

The functions follow the value, not the shape: a value contains finitely many values, while record
types may contain each other. Faults carry no position, since a value has none.
-/

namespace ValidatorGen.Schema

open Json (Fault ShapeCause Found)

variable {ρ : Type}

/-- The fault of a value that is not of the kind of its shape. -/
def mistyped (found : Found) (expected : String) : Fault :=
  .ofShape (.wrongType found expected)

mutual

/-- A value that is to have a shape, completed. A record may be given as an object or as a list of
its fields in order, and a choice as its name or as an object with that name as its only member. -/
def conform (schema : Schema ρ) (shape : Shape ρ) : Json → Except Fault Json
  | .null => (shape.ofScalar schema .null).mapError .ofShape
  | .bool b => (shape.ofScalar schema (.bool b)).mapError .ofShape
  | .number n => (shape.ofScalar schema (.number n)).mapError .ofShape
  | .string s => (shape.ofScalar schema (.string s)).mapError .ofShape
  | .array items =>
    match shape with
    | .anything => .ok (.array items)
    | .listOf item => (conformItems schema item 0 items).map .array
    | .record type =>
      match conformElements schema (schema type).fields 0 items with
      | .error fault => .error fault
      | .ok read =>
        match (schema type).ofElements read with
        | .error cause => .error (.ofShape cause)
        | .ok value =>
          -- Surplus items are complained about only when the record is otherwise complete.
          if items.length ≤ (schema type).fields.length then .ok value
          else .error (.ofShape (.wrongLength items.length "fewer elements in array"))
    | shape => .error (mistyped .sequence (shape.expected schema))
  | .object members =>
    match shape with
    | .anything | .members => .ok (.object members)
    | .oneOf names =>
      match members with
      | [(name, content)] =>
        if name ∉ names then .error (.ofShape (.unknownVariant name names))
        else match content with
          | .null => .ok (.string name)
          | content => .error ((mistyped (.of content) "unit").under (.key name))
      | _ => .error (.ofShape (.wrongValue .map "map with a single key"))
    | .record type =>
      match conformMembers schema (schema type) members with
      | .error fault => .error fault
      | .ok read => ((schema type).ofMembers read).mapError .ofShape
    | shape => .error (mistyped .map (shape.expected schema))

/-- Items that are to have one shape, counted from an index. -/
def conformItems (schema : Schema ρ) (shape : Shape ρ) (index : Nat) :
    List Json → Except Fault (List Json)
  | [] => .ok []
  | item :: rest =>
    match conform schema shape item with
    | .error fault => .error (fault.under (.index index))
    | .ok item => (conformItems schema shape (index + 1) rest).map (item :: ·)

/-- Items that are to be the first fields of a record; surplus items are left out. -/
def conformElements (schema : Schema ρ) (fields : List (Field ρ)) (index : Nat) :
    List Json → Except Fault (List (String × Json))
  | [] => .ok []
  | item :: rest =>
    match fields with
    | [] => .ok []
    | field :: fields =>
      match conform schema field.shape item with
      | .error fault => .error (fault.under (.index index))
      | .ok value => (conformElements schema fields (index + 1) rest).map ((field.name, value) :: ·)

/-- Members that are to be fields of a record. -/
def conformMembers (schema : Schema ρ) (type : RecordType ρ) :
    List (String × Json) → Except Fault (List (String × Json))
  | [] => .ok []
  | (name, value) :: rest =>
    match type.field? name with
    | none => .error ((Fault.ofShape (.unknownField name type.names)).under (.key name))
    | some field =>
      match conform schema field.shape value with
      | .error fault => .error (fault.under (.key name))
      | .ok value => (conformMembers schema type rest).map ((name, value) :: ·)

end

end ValidatorGen.Schema

import ValidatorGen.Json.Written
import ValidatorGen.Schema.Conform

/-!
# Documents of a shape, as text

A document in a text is checked against a shape while it is read, so that the first fault of the
text is found, be it one of JSON or one of the shape, and its position is known. Unlike in a
value, a field must not be given twice, and nothing is asked of what follows the document.

The functions have the same cases as those on values. What is added in each is the question where
the reader stands when it finds the fault: before the value, after it, or one byte into what
follows.
-/

namespace ValidatorGen.Schema

open Json (Breach Fault Found ListEnd ObjectEnd Position ShapeCause Written)

variable {ρ : Type}

/-- The position one byte on in the same line. -/
def oneFurther (p : Position) : Position :=
  ⟨p.line, p.column + 1⟩

/-- The fault of a written value that is not of the kind of its shape. A scalar is read before it
is found wrong; a list or an object is not. -/
def mistypedWritten (expected : String) : Written → Fault
  | .scalar _ value finish => .ofShapeAt finish (.wrongType (.scalar value) expected)
  | .list start .. => .ofShapeAt start (.wrongType .sequence expected)
  | .object start .. => .ofShapeAt start (.wrongType .map expected)
  | .broken _ _ breach => .ofBreach breach

/-- No value of the kind that is due starts here. -/
def noValueAt (start : Position) : Fault :=
  .ofBreach ⟨.expectedValue, oneFurther start⟩

/-- What follows the last field of a record that is given as a list with exactly its fields. Only
the closing bracket is due then, so another item counts as text after the list. -/
def endOfElements : Breach → Breach
  | ⟨.endInValue, position⟩ | ⟨.expectedListEnd, position⟩ => ⟨.trailingCharacters, position⟩
  | breach => breach

/-- The fault of a name that is no field. -/
def unknownName (type : RecordType ρ) (name : String) (nameEnd : Position) : Fault :=
  (Fault.ofShapeAt nameEnd (.unknownField name type.names)).under (.key name)

/-- The fault of a name after which no colon stands; that it is no field, or that it has been given
before, comes first. -/
def noColonFault (type : RecordType ρ) (read : List (String × Json)) (name : String)
    (nameEnd next : Position) (breach : Breach) : Fault :=
  if (type.field? name).isNone then unknownName type name nameEnd
  else if (Json.lookup? name read).isSome then .ofShapeAt next (.duplicateField name)
  else .ofBreach breach

/-- A choice written as an object without a member. -/
def emptyChoice (names : List String) : ObjectEnd → Fault
  | .closed brace => noValueAt brace
  | .tooDeep breach => .ofBreach breach
  | .breaks ⟨.endInObject, position⟩ => .ofBreach ⟨.endInValue, position⟩
  | .breaks breach => .ofBreach breach
  | .notName _ found => mistypedWritten "variant identifier" found
  | .noColon name nameEnd _ _ breach =>
    if name ∈ names then .ofBreach breach else .ofShapeAt nameEnd (.unknownVariant name names)

/-- A choice written as an object: its only member has the chosen name and no content. -/
def choiceOfObject (names : List String) (members : List (Json.Member Written))
    (ending : ObjectEnd) : Except Fault Json :=
  match members with
  | [] => .error (emptyChoice names ending)
  | member :: rest =>
    if member.name ∉ names then
      .error (.ofShapeAt member.nameEnd (.unknownVariant member.name names))
    else
      match member.value with
      | .scalar _ .null _ =>
        match rest, ending with
        | [], .closed _ => .ok (.string member.name)
        | [], .breaks ⟨.endInObject, position⟩ => .error (.ofBreach ⟨.endInObject, position⟩)
        | _, _ => .error (.ofBreach ⟨.expectedValue, member.next⟩)
      | content => .error ((mistypedWritten "unit" content).under (.key member.name))

mutual

/-- A written value that is to have a shape, completed. -/
def conformWritten (schema : Schema ρ) (shape : Shape ρ) : Written → Except Fault Json
  | .scalar start value finish =>
    match shape, value with
    | .oneOf _, .null | .oneOf _, .bool _ | .oneOf _, .number _ => .error (noValueAt start)
    | shape, value => (shape.ofScalar schema value).mapError (.ofShapeAt finish)
  | .broken start fragment breach =>
    match shape, fragment with
    | .oneOf _, .word | .oneOf _, .number => .error (noValueAt start)
    | _, _ => .error (.ofBreach breach)
  | .list start items ending =>
    match shape with
    | .anything => (Written.list start items ending).toJson
    | .listOf item =>
      match conformWrittenItems schema item 0 items with
      | .error fault => .error fault
      | .ok items =>
        match ending with
        | .closed _ => .ok (.array items)
        | .breaks breach => .error (.ofBreach breach)
    | .record type =>
      match conformWrittenElements schema (schema type).fields 0 items with
      | .error fault => .error fault
      | .ok read =>
        -- The items were read up to the last field; whatever stands after that is not looked into.
        match items.drop (schema type).fields.length, ending with
        | surplus :: _, _ =>
          .error (.ofBreach ⟨.trailingCharacters, oneFurther surplus.start⟩)
        | [], .breaks breach =>
          .error (.ofBreach
            (if items.length < (schema type).fields.length then breach else endOfElements breach))
        | [], .closed bracket =>
          ((schema type).ofElements read).mapError (.ofShapeAt (oneFurther bracket))
    | .oneOf _ => .error (noValueAt start)
    | shape => .error (mistypedWritten (shape.expected schema) (.list start items ending))
  | .object start members ending =>
    match shape with
    | .anything | .members => (Written.object start members ending).toJson
    | .oneOf names => choiceOfObject names members ending
    | .record type =>
      match conformWrittenMembers schema (schema type) [] members with
      | .error fault => .error fault
      | .ok read =>
        match ending with
        | .closed brace => ((schema type).ofMembers read).mapError (.ofShapeAt (oneFurther brace))
        | .tooDeep breach => .error (.ofBreach breach)
        | .breaks breach | .notName breach _ => .error ((Fault.ofBreach breach).under .unnamed)
        | .noColon name nameEnd next closes breach =>
          -- A brace is taken for the end of the object before the colon is missed.
          let next := if closes then oneFurther next else next
          .error (noColonFault (schema type) read name nameEnd next breach)
    | shape => .error (mistypedWritten (shape.expected schema) (.object start members ending))

/-- Written items that are to have one shape, counted from an index. -/
def conformWrittenItems (schema : Schema ρ) (shape : Shape ρ) (index : Nat) :
    List Written → Except Fault (List Json)
  | [] => .ok []
  | item :: rest =>
    match conformWritten schema shape item with
    | .error fault => .error (fault.under (.index index))
    | .ok item => (conformWrittenItems schema shape (index + 1) rest).map (item :: ·)

/-- Written items that are to be the first fields of a record; surplus items are left out. -/
def conformWrittenElements (schema : Schema ρ) (fields : List (Field ρ)) (index : Nat) :
    List Written → Except Fault (List (String × Json))
  | [] => .ok []
  | item :: rest =>
    match fields with
    | [] => .ok []
    | field :: fields =>
      match conformWritten schema field.shape item with
      | .error fault => .error (fault.under (.index index))
      | .ok value =>
        (conformWrittenElements schema fields (index + 1) rest).map ((field.name, value) :: ·)

/-- Written members that are to be fields of a record, after those that have been read. -/
def conformWrittenMembers (schema : Schema ρ) (type : RecordType ρ)
    (read : List (String × Json)) :
    List (Json.Member Written) → Except Fault (List (String × Json))
  | [] => .ok read
  | member :: rest =>
    match type.field? member.name with
    | none => .error (unknownName type member.name member.nameEnd)
    | some field =>
      if (Json.lookup? member.name read).isSome then
        .error (.ofShapeAt member.colon (.duplicateField member.name))
      else match conformWritten schema field.shape member.value with
      | .error fault => .error (fault.under (.key member.name))
      | .ok value => conformWrittenMembers schema type (read ++ [(member.name, value)]) rest

end

/-- The first value of a text, which is to have a shape, completed. -/
def read (schema : Schema ρ) (shape : Shape ρ) (text : String) : Except Fault Json :=
  conformWritten schema shape (Written.read text).1

end ValidatorGen.Schema

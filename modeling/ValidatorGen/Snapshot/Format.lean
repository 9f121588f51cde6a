import ValidatorGen.Schema.Written
import ValidatorGen.Json.Access
import ValidatorGen.Snapshot.Basic

/-!
# Snapshots as documents

The record types of a snapshot document, the document of a snapshot, and the snapshot of a
document. Main statement: the snapshot of the document of a snapshot is that snapshot
(`Compilation.ofDocument_toJson`).

The three tables below say the same thing three times, once for writing, once for checking and
once for reading, with the fields in one order. Reading is done from completed documents only, so
`ofDocument` matches on all fields at once and its last case is never reached; it is there because
a value has no type that says so. A field that is added has to be added in all three places, and
the round trip fails to compile when one of them is forgotten.
-/

namespace ValidatorGen

namespace MemberKind

/-- The name of a kind in a document. -/
def label : MemberKind → String
  | .field => "field"
  | .property => "property"
  | .method => "method"
  | .constructor => "constructor"
  | .destructor => "destructor"
  | .event => "event"
  | .indexer => "indexer"
  | .operator => "operator"
  | .conversion => "conversion"

/-- Every kind, in the order in which messages list the names. -/
def all : List MemberKind :=
  [.field, .property, .method, .constructor, .destructor, .event, .indexer, .operator, .conversion]

/-- The kind of a name; the first one for a name that is none. -/
def ofLabel (label : String) : MemberKind :=
  (all.find? (·.label = label)).getD .field

@[simp]
theorem ofLabel_label (k : MemberKind) : ofLabel k.label = k := by
  cases k <;> rfl

end MemberKind

namespace TypeKind

/-- The name of a kind in a document. -/
def label : TypeKind → String
  | .classType => "class"
  | .structType => "struct"
  | .interfaceType => "interface"
  | .recordClass => "record"
  | .recordStruct => "record_struct"
  | .enumType => "enum"
  | .delegateType => "delegate"

/-- Every kind, in the order in which messages list the names. -/
def all : List TypeKind :=
  [.classType, .structType, .interfaceType, .recordClass, .recordStruct, .enumType, .delegateType]

/-- The kind of a name; the first one for a name that is none. -/
def ofLabel (label : String) : TypeKind :=
  (all.find? (·.label = label)).getD .classType

@[simp]
theorem ofLabel_label (k : TypeKind) : ofLabel k.label = k := by
  cases k <;> rfl

end TypeKind

/-! ## Documents of snapshots -/

def Span.toJson (s : Span) : Json :=
  .object [("line", .ofUInt32 s.line), ("column", .ofUInt32 s.column)]

def Argument.toJson (a : Argument) : Json :=
  .object [("kind", .string a.kind), ("value", a.value)]

def Attribute.toJson (a : Attribute) : Json :=
  .object
    [("name", .string a.name),
     ("arguments", .array (a.arguments.map Argument.toJson)),
     ("named_arguments", .object a.namedArguments)]

def Parameter.toJson (p : Parameter) : Json :=
  .object [("name", .string p.name), ("type", .string p.type)]

def Member.toJson (m : Member) : Json :=
  .object
    [("kind", .string m.kind.label),
     ("name", .string m.name),
     ("type", .ofOptionalText m.type),
     ("modifiers", .ofTexts m.modifiers),
     ("attributes", .array (m.attributes.map Attribute.toJson)),
     ("parameters", .array (m.parameters.map Parameter.toJson)),
     ("has_body", .bool m.hasBody),
     ("span", m.span.toJson)]

mutual

def TypeDeclaration.toJson : TypeDeclaration → Json
  | ⟨head, nested⟩ =>
    .object
      [("kind", .string head.kind.label),
       ("name", .string head.name),
       ("namespace", .ofOptionalText head.inNamespace),
       ("modifiers", .ofTexts head.modifiers),
       ("type_parameters", .ofTexts head.typeParameters),
       ("attributes", .array (head.attributes.map Attribute.toJson)),
       ("base_list", .ofTexts head.baseList),
       ("members", .array (head.members.map Member.toJson)),
       ("nested", .array (TypeDeclaration.listToJson nested)),
       ("symbol", .string head.symbol),
       ("span", head.span.toJson)]

def TypeDeclaration.listToJson : List TypeDeclaration → List Json
  | [] => []
  | declaration :: rest => declaration.toJson :: listToJson rest

end

def SourceFile.toJson (f : SourceFile) : Json :=
  .object
    [("path", .string f.path),
     ("types", .array (TypeDeclaration.listToJson f.types))]

def Compilation.toJson (c : Compilation) : Json :=
  .object [("files", .array (c.files.map SourceFile.toJson))]

/-! ## Shapes of snapshot documents -/

namespace Snapshot

/-- The record types of a snapshot. -/
inductive Part where
  | compilation
  | sourceFile
  | typeDeclaration
  | member
  | attribute
  | argument
  | parameter
  | span
  deriving Repr, DecidableEq

/-- A list that may be left out. -/
def listField (name : String) (item : Shape Part) : Field Part :=
  ⟨name, .listOf item, some (.array [])⟩

/-- A place that may be left out. Its two numbers may be left out as well, and zero stands for a
number that is not known. -/
def spanField : Field Part :=
  ⟨"span", .record .span, some (Span.toJson ⟨0, 0⟩)⟩

def spanShape : Shape Part :=
  .natural "u32" 0x100000000

/-- The fields of each record type with their defaults. The titles appear in messages. -/
def schema : Schema Part
  | .compilation => ⟨"Compilation", [listField "files" (.record .sourceFile)]⟩
  | .sourceFile => ⟨"SourceFile",
      [⟨"path", .text, none⟩,
       listField "types" (.record .typeDeclaration)]⟩
  | .typeDeclaration => ⟨"TypeDecl",
      [⟨"kind", .oneOf (TypeKind.all.map TypeKind.label), none⟩,
       ⟨"name", .text, none⟩,
       ⟨"namespace", .optionalText, some .null⟩,
       listField "modifiers" .text,
       listField "type_parameters" .text,
       listField "attributes" (.record .attribute),
       listField "base_list" .text,
       listField "members" (.record .member),
       listField "nested" (.record .typeDeclaration),
       ⟨"symbol", .text, some (.string TypeHead.namedType)⟩,
       spanField]⟩
  | .member => ⟨"MemberDecl",
      [⟨"kind", .oneOf (MemberKind.all.map MemberKind.label), none⟩,
       ⟨"name", .text, none⟩,
       ⟨"type", .optionalText, some .null⟩,
       listField "modifiers" .text,
       listField "attributes" (.record .attribute),
       listField "parameters" (.record .parameter),
       ⟨"has_body", .flag, some (.bool true)⟩,
       spanField]⟩
  | .attribute => ⟨"AttributeData",
      [⟨"name", .text, none⟩,
       listField "arguments" (.record .argument),
       ⟨"named_arguments", .members, some (.object [])⟩]⟩
  | .argument => ⟨"Argument",
      [⟨"kind", .text, none⟩,
       ⟨"value", .anything, none⟩]⟩
  | .parameter => ⟨"Parameter",
      [⟨"name", .text, none⟩,
       ⟨"type", .text, none⟩]⟩
  | .span => ⟨"Span",
      [⟨"line", spanShape, some (.ofUInt32 0)⟩,
       ⟨"column", spanShape, some (.ofUInt32 0)⟩]⟩

end Snapshot

/-! ## Snapshots of documents

These are read from completed documents, in which every record has all its fields in order. -/

def Span.ofDocument : Json → Span
  | .object [(_, line), (_, column)] => ⟨line.asUInt32, column.asUInt32⟩
  | _ => default

def Argument.ofDocument : Json → Argument
  | .object [(_, kind), (_, value)] => ⟨kind.asText, value⟩
  | _ => default

def Attribute.ofDocument : Json → Attribute
  | .object [(_, name), (_, arguments), (_, namedArguments)] =>
    { name := name.asText
      arguments := arguments.asList.map Argument.ofDocument
      namedArguments := namedArguments.asMembers }
  | _ => default

def Parameter.ofDocument : Json → Parameter
  | .object [(_, name), (_, type)] => ⟨name.asText, type.asText⟩
  | _ => default

def Member.ofDocument : Json → Member
  | .object [(_, kind), (_, name), (_, type), (_, modifiers), (_, attributes), (_, parameters),
      (_, hasBody), (_, span)] =>
    { kind := .ofLabel kind.asText
      name := name.asText
      type := type.asOptionalText
      modifiers := modifiers.asTexts
      attributes := attributes.asList.map Attribute.ofDocument
      parameters := parameters.asList.map Parameter.ofDocument
      hasBody := hasBody.asFlag
      span := .ofDocument span }
  | _ => default

mutual

def TypeDeclaration.ofDocument : Json → TypeDeclaration
  | .object [(_, kind), (_, name), (_, inNamespace), (_, modifiers), (_, typeParameters),
      (_, attributes), (_, baseList), (_, members), (_, .array nested), (_, symbol), (_, span)] =>
    { head :=
        { kind := .ofLabel kind.asText
          name := name.asText
          inNamespace := inNamespace.asOptionalText
          modifiers := modifiers.asTexts
          typeParameters := typeParameters.asTexts
          attributes := attributes.asList.map Attribute.ofDocument
          baseList := baseList.asTexts
          members := members.asList.map Member.ofDocument
          symbol := symbol.asText
          span := .ofDocument span }
      nested := TypeDeclaration.listOfDocuments nested }
  | _ => default

def TypeDeclaration.listOfDocuments : List Json → List TypeDeclaration
  | [] => []
  | value :: rest => TypeDeclaration.ofDocument value :: listOfDocuments rest

end

def SourceFile.ofDocument : Json → SourceFile
  | .object [(_, path), (_, types)] =>
    ⟨path.asText, TypeDeclaration.listOfDocuments types.asList⟩
  | _ => default

def Compilation.ofDocument : Json → Compilation
  | .object [(_, files)] => ⟨files.asList.map SourceFile.ofDocument⟩
  | _ => .empty

namespace Compilation

/-- The snapshot in a text. What follows the document is not looked at. -/
def ofText (text : String) : Except Json.Fault Compilation :=
  (Schema.read Snapshot.schema (.record .compilation) text).map ofDocument

/-- The snapshot in a value. -/
def ofJson (value : Json) : Except Json.Fault Compilation :=
  (Schema.conform Snapshot.schema (.record .compilation) value).map ofDocument

end Compilation

/-! ## Reading back -/

@[simp]
theorem Span.ofDocument_toJson (s : Span) : Span.ofDocument s.toJson = s := by
  simp [Span.toJson, Span.ofDocument]

@[simp]
theorem Argument.ofDocument_toJson (a : Argument) : Argument.ofDocument a.toJson = a := by
  simp [Argument.toJson, Argument.ofDocument]

@[simp]
theorem Attribute.ofDocument_toJson (a : Attribute) : Attribute.ofDocument a.toJson = a := by
  simp [Attribute.toJson, Attribute.ofDocument, Json.asList, Json.asMembers, Function.comp_def]

@[simp]
theorem Parameter.ofDocument_toJson (p : Parameter) : Parameter.ofDocument p.toJson = p := by
  simp [Parameter.toJson, Parameter.ofDocument]

@[simp]
theorem Member.ofDocument_toJson (m : Member) : Member.ofDocument m.toJson = m := by
  simp [Member.toJson, Member.ofDocument, Json.asList, Function.comp_def]

mutual

@[simp]
theorem TypeDeclaration.ofDocument_toJson :
    ∀ t : TypeDeclaration, TypeDeclaration.ofDocument t.toJson = t
  | ⟨head, nested⟩ => by
    simp [TypeDeclaration.toJson, TypeDeclaration.ofDocument, Json.asList, Function.comp_def,
      TypeDeclaration.listOfDocuments_listToJson nested]

@[simp]
theorem TypeDeclaration.listOfDocuments_listToJson :
    ∀ ts : List TypeDeclaration, listOfDocuments (listToJson ts) = ts
  | [] => by simp [listToJson, listOfDocuments]
  | t :: ts => by
    simp [listToJson, listOfDocuments, TypeDeclaration.ofDocument_toJson t,
      TypeDeclaration.listOfDocuments_listToJson ts]

end

@[simp]
theorem SourceFile.ofDocument_toJson (f : SourceFile) : SourceFile.ofDocument f.toJson = f := by
  simp [SourceFile.toJson, SourceFile.ofDocument, Json.asList]

theorem Compilation.ofDocument_toJson (c : Compilation) :
    Compilation.ofDocument c.toJson = c := by
  simp [Compilation.toJson, Compilation.ofDocument, Json.asList, Function.comp_def]

end ValidatorGen

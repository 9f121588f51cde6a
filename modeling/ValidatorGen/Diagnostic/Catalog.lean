import ValidatorGen.Json.Basic

/-!
# Catalog of diagnostics

All that can be said about a type that asks for a validator: for each diagnostic its code, title,
severity and the template of its message. A template is text with slots for the type it is about.

Templates are lists of parts rather than texts with numbers in braces, so filling one cannot meet
a slot by accident: a name that contains `{1}` appears in the message as it is. The command
that lists the catalog writes the slots out with `Template.format`.

* `DiagnosticId.descriptor` — the entry of each diagnostic;
* `catalog` — all entries in order.
-/

namespace ValidatorGen

/-- How grave a diagnostic is. Errors stop the source for a type, warnings do not. -/
inductive Severity where
  | error
  | warning
  deriving Repr, DecidableEq

def Severity.label : Severity → String
  | .error => "error"
  | .warning => "warning"

/-- The diagnostics. Those about containing types have codes of their own, and so does what cannot
be resolved to a type at all. -/
inductive DiagnosticId where
  | notPublic
  | notPublicContainingType
  | notPartial
  | notPartialContainingType
  | staticType
  | unsupportedTypeDeclaration
  | validateConflict
  | unknown
  | noEffect
  | unsupportedConstraintOperand
  deriving Repr, DecidableEq

/-- What a message can speak about. The detail is a member for one diagnostic and the kind of a
symbol for another; a template that does not use an argument leaves it out. -/
structure MessageArguments where
  inNamespace : String
  typeName : String
  containing : String
  detail : String
  deriving Repr, DecidableEq

/-- How the namespace of a type that has none is written. -/
def globalNamespace : String := "<global>"

namespace MessageArguments

/-- The arguments of a message about a type. -/
def ofType (inNamespace : Option String) (typeName : String) : MessageArguments :=
  ⟨inNamespace.getD globalNamespace, typeName, "", ""⟩

@[simp]
def withContaining (a : MessageArguments) (containing : String) : MessageArguments :=
  { a with containing }

@[simp]
def withDetail (a : MessageArguments) (detail : String) : MessageArguments :=
  { a with detail }

end MessageArguments

/-- A place in a template for one of the arguments. -/
inductive Slot where
  | inNamespace
  | typeName
  | containing
  | detail
  deriving Repr, DecidableEq

namespace Slot

/-- A slot as it is written in a template. -/
def mark : Slot → String
  | .inNamespace => "\x7b0\x7d"
  | .typeName => "\x7b1\x7d"
  | .containing => "\x7b2\x7d"
  | .detail => "\x7b3\x7d"

/-- What stands for a slot in the message. -/
@[simp]
def fill (a : MessageArguments) : Slot → String
  | .inNamespace => a.inNamespace
  | .typeName => a.typeName
  | .containing => a.containing
  | .detail => a.detail

end Slot

/-- A part of a template. -/
inductive TemplatePart where
  | text (text : String)
  | slot (slot : Slot)
  deriving Repr, DecidableEq

/-- The text of a message, with slots. -/
abbrev Template := List TemplatePart

namespace Template

/-- The template with its slots written out. -/
def format (t : Template) : String :=
  String.join (t.map fun
    | .text s => s
    | .slot s => s.mark)

/-- The message: each slot is filled once, and what it is filled with is not looked at again. -/
def fill (a : MessageArguments) (t : Template) : String :=
  String.join (t.map fun
    | .text s => s
    | .slot s => s.fill a)

section Fill

variable (a : MessageArguments) (t : Template)

@[simp]
theorem fill_nil : fill a [] = "" := rfl

@[simp]
theorem fill_text_cons (s : String) : fill a (.text s :: t) = s ++ fill a t := by
  simp [fill]

@[simp]
theorem fill_slot_cons (s : Slot) : fill a (.slot s :: t) = s.fill a ++ fill a t := by
  simp [fill]

end Fill

end Template

/-- What the catalog says about a diagnostic. -/
structure Descriptor where
  id : DiagnosticId
  code : String
  title : String
  template : Template
  severity : Severity
  deriving Repr, DecidableEq

/-- The category of all diagnostics. -/
def Descriptor.category : String := "FastValidate.CodeGen"

namespace DiagnosticId

def label : DiagnosticId → String
  | .notPublic => "NotPublic"
  | .notPublicContainingType => "NotPublicContainingType"
  | .notPartial => "NotPartial"
  | .notPartialContainingType => "NotPartialContainingType"
  | .staticType => "StaticType"
  | .unsupportedTypeDeclaration => "UnsupportedTypeDeclaration"
  | .validateConflict => "ValidateConflict"
  | .unknown => "Unknown"
  | .noEffect => "NoEffect"
  | .unsupportedConstraintOperand => "UnsupportedConstraintOperand"

/-- The namespace and the name of the type. -/
@[simp]
def fullName : Template :=
  [.slot .inNamespace, .text ".", .slot .typeName]

/-- The namespace and the name of a type around it. -/
@[simp]
def fullContaining : Template :=
  [.slot .inNamespace, .text ".", .slot .containing]

/-- The entry of a diagnostic. -/
def descriptor (id : DiagnosticId) : Descriptor :=
  match id with
  | .notPublic =>
    { id
      code := "ERR-FV-001"
      title := "type must be public"
      template := .text "type '" :: (fullName ++ [.text "' must be declared as public"])
      severity := .error }
  | .notPublicContainingType =>
    { id
      code := "ERR-FV-001b"
      title := "type must be public"
      template := .text "containing type '" :: (fullContaining ++ .text "' of type '" ::
        (fullName ++ [.text "' must be declared as public"]))
      severity := .error }
  | .notPartial =>
    { id
      code := "ERR-FV-002"
      title := "type must be partial"
      template := .text "type '" :: (fullName ++ [.text "' must be declared as partial"])
      severity := .error }
  | .notPartialContainingType =>
    { id
      code := "ERR-FV-002b"
      title := "type must be partial"
      template := .text "containing type '" :: (fullContaining ++ .text "' of type '" ::
        (fullName ++ [.text "' must be declared as partial"]))
      severity := .error }
  | .staticType =>
    { id
      code := "ERR-FV-003"
      title := "cannot generate validations for static type"
      template := .text "cannot generate validations for static type " :: fullName
      severity := .error }
  | .unsupportedTypeDeclaration =>
    { id
      code := "ERR-FV-004"
      title := "unsupported type declaration"
      template := [.text ("unsupported type of declaration, FastValidate currently only " ++
        "supports class, struct, interface, record, and record struct types")]
      severity := .error }
  | .validateConflict =>
    { id
      code := "ERR-FV-005"
      title := "conflicting Validate member"
      template := .text "type '" :: (fullName ++
        [.text "' already declares a member 'Validate' that is not a compatible partial stub"])
      severity := .error }
  | .unknown =>
    { id
      code := "ERR-FV-999"
      title := "unknown error"
      template := [.text "unknown error occurred while generating. symbol type '",
        .slot .detail, .text "'"]
      severity := .error }
  | .noEffect =>
    { id
      code := "WARN-FV-001"
      title := "validation marker has no effect"
      template := [.text ("Validate attribute will have no effect as no members have defined " ++
        "validators")]
      severity := .warning }
  | .unsupportedConstraintOperand =>
    { id
      code := "WARN-FV-002"
      title := "constraint operand not supported"
      template := .text "constraint on member '" :: .slot .detail :: .text "' of type '" ::
        (fullName ++
          [.text "' was ignored: operand is missing or not a supported numeric value"])
      severity := .warning }

/-- The diagnostics in the order of the catalog. -/
def all : List DiagnosticId :=
  [.notPublic, .notPublicContainingType, .notPartial, .notPartialContainingType, .staticType,
    .unsupportedTypeDeclaration, .validateConflict, .unknown, .noEffect,
    .unsupportedConstraintOperand]

end DiagnosticId

/-- What there is to say about each diagnostic. -/
def catalog : List Descriptor :=
  DiagnosticId.all.map DiagnosticId.descriptor

/-- A descriptor as a document. -/
def Descriptor.toJson (d : Descriptor) : Json :=
  .object
    [("id", .string d.id.label),
     ("code", .string d.code),
     ("title", .string d.title),
     ("format", .string d.template.format),
     ("category", .string category),
     ("severity", .string d.severity.label)]

end ValidatorGen

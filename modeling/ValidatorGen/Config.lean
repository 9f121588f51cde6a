import ValidatorGen.Schema.Written
import ValidatorGen.Json.Access

/-!
# Configuration of the generator

Which names have a meaning, and how the output is written. Nothing else about a pass can be set.

A configuration is a document whose fields may all be left out, also those of the record of names.
What is left out has its standard value. Names of fields that do not exist are not ignored, so a
misspelled field is a fault and not a silent default.

* `Config.standard` — the configuration of those who write none;
* `Config.schema` — the form of a document, with the defaults;
* `Config.ofText`, `Config.ofJson` — reading a document from text, and from a value that was read
  before.
-/

namespace ValidatorGen

/-- The full names the generator looks for: the attribute that marks a type, the interface a
marked type is given, and the three attributes that constrain a member. -/
structure KnownSymbols where
  marker : String
  capability : String
  greaterThan : String
  lessThan : String
  between : String
  deriving Repr, DecidableEq, Inhabited

structure Config where
  symbols : KnownSymbols
  /-- Whether a constraint whose operand cannot be used is reported. -/
  reportDropped : Bool
  /-- Spaces for each level of the generated source. -/
  indent : UInt64
  deriving Repr, DecidableEq, Inhabited

namespace KnownSymbols

/-- The names that are in use if no others are configured. One of the three attributes is not in the
namespace of the other two. -/
def standard : KnownSymbols where
  marker := "FastValidate.Attributes.GenerateValidateMethodAttribute"
  capability := "FastValidate.IFastValidatable"
  greaterThan := "FastValidate.Attributes.Validate.GreaterThanAttribute"
  lessThan := "FastValidate.Attributes.LessThanAttribute"
  between := "FastValidate.Attributes.Validate.BetweenAttribute"

end KnownSymbols

namespace Config

def standard : Config where
  symbols := .standard
  reportDropped := false
  indent := 4

/-- The configuration as a document. -/
def toJson (c : Config) : Json :=
  .object
    [("symbols", .object
      [("marker", .string c.symbols.marker),
       ("capability", .string c.symbols.capability),
       ("greater_than", .string c.symbols.greaterThan),
       ("less_than", .string c.symbols.lessThan),
       ("between", .string c.symbols.between)]),
     ("report_dropped_constraints", .bool c.reportDropped),
     ("indent", .ofUInt64 c.indent)]

/-- The record types of a configuration. -/
inductive Part where
  | config
  | symbols
  deriving Repr, DecidableEq

/-- Every field has its standard value as default. -/
def schema : Schema Part
  | .config => ⟨"GeneratorConfig",
      [⟨"symbols", .record .symbols, field "symbols" standard.toJson⟩,
       ⟨"report_dropped_constraints", .flag, field "report_dropped_constraints" standard.toJson⟩,
       ⟨"indent", .natural "usize" 0x10000000000000000, field "indent" standard.toJson⟩]⟩
  | .symbols => ⟨"KnownSymbols",
      ["marker", "capability", "greater_than", "less_than", "between"].map fun name =>
        ⟨name, .text, (field "symbols" standard.toJson).bind (field name)⟩⟩
where
  field := Json.member?

/-- The configuration that a completed document describes. Documents are completed while they are
checked against the schema, so all fields are there, in the order of the schema. -/
def ofDocument : Json → Config
  | .object [(_, .object [(_, marker), (_, capability), (_, greaterThan), (_, lessThan),
      (_, between)]), (_, reportDropped), (_, indent)] =>
    { symbols :=
        { marker := marker.asText
          capability := capability.asText
          greaterThan := greaterThan.asText
          lessThan := lessThan.asText
          between := between.asText }
      reportDropped := reportDropped.asFlag
      indent := indent.asUInt64 }
  | _ => .standard

/-- The configuration in a text. -/
def ofText (text : String) : Except Json.Fault Config :=
  (Schema.read schema (.record .config) text).map ofDocument

/-- The configuration in a value. -/
def ofJson (value : Json) : Except Json.Fault Config :=
  (Schema.conform schema (.record .config) value).map ofDocument

@[simp]
theorem ofDocument_toJson (c : Config) : ofDocument c.toJson = c := by
  simp [toJson, ofDocument]

end Config

end ValidatorGen

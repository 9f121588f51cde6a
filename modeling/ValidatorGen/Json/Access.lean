import ValidatorGen.Json.Basic

/-!
# Values of a known kind

What a value is taken for where its kind is already known, as it is after a document has been
checked against a shape. A value of another kind is taken for an empty one, which cannot happen
after the check; the functions are total so that records can be read without carrying the proof
of conformance along.

The lemmas at the end say that what is written is read back. They are all that the round trip of
the formats needs to know about single fields.
-/

namespace ValidatorGen.Json

def asText : Json → String
  | .string s => s
  | _ => ""

def asOptionalText : Json → Option String
  | .string s => some s
  | _ => none

def asFlag : Json → Bool
  | .bool b => b
  | _ => false

def asNat : Json → Nat
  | .number (.integer n _) => n.toNat
  | _ => 0

def asUInt32 (value : Json) : UInt32 :=
  value.asNat.toUInt32

def asUInt64 (value : Json) : UInt64 :=
  value.asNat.toUInt64

def asList : Json → List Json
  | .array items => items
  | _ => []

def asTexts (value : Json) : List String :=
  value.asList.map asText

def asMembers : Json → List (String × Json)
  | .object members => members
  | _ => []

/-- A list of texts as a value. -/
def ofTexts (texts : List String) : Json :=
  .array (texts.map .string)

/-- A text as a value, null standing for none. -/
def ofOptionalText : Option String → Json
  | none => .null
  | some s => .string s

@[simp]
theorem asText_string (s : String) : asText (.string s) = s := rfl

@[simp]
theorem asFlag_bool (b : Bool) : asFlag (.bool b) = b := rfl

@[simp]
theorem asOptionalText_ofOptionalText (s : Option String) :
    asOptionalText (ofOptionalText s) = s := by
  cases s <;> rfl

@[simp]
theorem asTexts_ofTexts (texts : List String) : asTexts (ofTexts texts) = texts := by
  simp [asTexts, ofTexts, asList, Function.comp_def]

@[simp]
theorem asUInt32_ofUInt32 (n : UInt32) : asUInt32 (ofUInt32 n) = n := by
  simp [asUInt32, asNat, ofUInt32]

@[simp]
theorem asUInt64_ofUInt64 (n : UInt64) : asUInt64 (ofUInt64 n) = n := by
  simp [asUInt64, asNat, ofUInt64]

end ValidatorGen.Json

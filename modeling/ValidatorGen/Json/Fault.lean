import ValidatorGen.Json.Writer
import ValidatorGen.Text.Quoted

/-!
# Why a document cannot be read

A fault has a cause, the path from the top of the document to the value that was being read, and,
when the document was read from text, a position. The causes are those of JSON text itself and
those of a document that is JSON but does not have the required shape.

A fault is built where it is found, with the empty path, and `Fault.under` puts one step in front
of the path on the way out. The texts of the messages are part of what a user of the command sees,
so they are kept word for word.
-/

namespace ValidatorGen.Json

/-- A place in a text: lines count from one, columns are the bytes read in the line. -/
structure Position where
  line : Nat
  column : Nat
  deriving Repr, DecidableEq

/-- Why a text is not JSON. -/
inductive SyntaxCause where
  | endInValue
  | endInObject
  | endInList
  | endInString
  | expectedValue
  | expectedWord
  | expectedColon
  | expectedListEnd
  | expectedObjectEnd
  | trailingComma
  | trailingCharacters
  | keyNotString
  | invalidNumber
  | numberOutOfRange
  | invalidEscape
  | loneSurrogate
  | truncatedEscape
  | controlCharacter
  | tooDeep
  deriving Repr, DecidableEq

/-- The words of a cause. -/
def SyntaxCause.message : SyntaxCause → String
  | .endInValue => "EOF while parsing a value"
  | .endInObject => "EOF while parsing an object"
  | .endInList => "EOF while parsing a list"
  | .endInString => "EOF while parsing a string"
  | .expectedValue => "expected value"
  | .expectedWord => "expected ident"
  | .expectedColon => "expected `:`"
  | .expectedListEnd => "expected `,` or `]`"
  | .expectedObjectEnd => "expected `,` or `\x7d`"
  | .trailingComma => "trailing comma"
  | .trailingCharacters => "trailing characters"
  | .keyNotString => "key must be a string"
  | .invalidNumber => "invalid number"
  | .numberOutOfRange => "number out of range"
  | .invalidEscape => "invalid escape"
  | .loneSurrogate => "lone leading surrogate in hex escape"
  | .truncatedEscape => "unexpected end of hex escape"
  | .controlCharacter => "control character (\\u0000-\\u001F) found while parsing a string"
  | .tooDeep => "recursion limit exceeded"

/-- Where and why a text stops being JSON. -/
structure Breach where
  cause : SyntaxCause
  position : Position
  deriving Repr, DecidableEq

/-- A value named by its kind; scalars with their text. -/
inductive Found where
  | scalar (value : Scalar)
  | sequence
  | map
  deriving Repr, DecidableEq

/-- What kind of value this is. -/
def Found.of : Json → Found
  | .null => .scalar .null
  | .bool b => .scalar (.bool b)
  | .number n => .scalar (.number n)
  | .string s => .scalar (.string s)
  | .array _ => .sequence
  | .object _ => .map

/-- A value as a message shows it. Only scalars come with their text. -/
def Found.message : Found → String
  | .scalar .null => "null"
  | .scalar (.bool b) => "boolean `" ++ (if b then "true" else "false") ++ "`"
  | .scalar (.number n@(.integer ..)) => "integer `" ++ n.toString ++ "`"
  | .scalar (.number n@(.float ..)) => "floating point `" ++ n.toString ++ "`"
  | .scalar (.string s) => "string " ++ Text.quoted s
  | .sequence => "sequence"
  | .map => "map"

/-- Why a document does not have the required shape. -/
inductive ShapeCause where
  | wrongType (found : Found) (expected : String)
  | wrongValue (found : Found) (expected : String)
  | wrongLength (length : Nat) (expected : String)
  | unknownField (name : String) (known : List String)
  | unknownVariant (name : String) (known : List String)
  | missingField (name : String)
  | duplicateField (name : String)
  deriving Repr, DecidableEq

/-- A choice among names, each in backticks. -/
def choiceOf : List String → String
  | [] => ""
  | [a] => "`" ++ a ++ "`"
  | [a, b] => "`" ++ a ++ "` or `" ++ b ++ "`"
  | names => "one of " ++ ", ".intercalate (names.map fun a => "`" ++ a ++ "`")

/-- The words of a cause: what was found and what was expected there. -/
def ShapeCause.message : ShapeCause → String
  | .wrongType found expected => "invalid type: " ++ found.message ++ ", expected " ++ expected
  | .wrongValue found expected => "invalid value: " ++ found.message ++ ", expected " ++ expected
  | .wrongLength length expected => "invalid length " ++ length.repr ++ ", expected " ++ expected
  | .unknownField name known => "unknown field `" ++ name ++ "`, expected " ++ choiceOf known
  | .unknownVariant name known => "unknown variant `" ++ name ++ "`, expected " ++ choiceOf known
  | .missingField name => "missing field `" ++ name ++ "`"
  | .duplicateField name => "duplicate field `" ++ name ++ "`"

/-- One step of a path into a document. -/
inductive Step where
  | key (name : String)
  | index (i : Nat)
  /-- Between the members of an object, where no name has been read. -/
  | unnamed
  deriving Repr, DecidableEq

/-- Path text: names are joined by points and indexes stand in brackets. The point stands in front
of a name only when something precedes it, so the separator is carried along. -/
def pathText (path : List Step) : String :=
  if path.isEmpty then "." else go "" path
where
  go (separator : String) : List Step → String
    | [] => ""
    | .key name :: rest => separator ++ name ++ go "." rest
    | .index i :: rest => "[" ++ i.repr ++ "]" ++ go "." rest
    | .unnamed :: rest => separator ++ "?" ++ go "." rest

/-- The two kinds of causes. -/
inductive Cause where
  | notJson (cause : SyntaxCause)
  | wrongShape (cause : ShapeCause)
  deriving Repr, DecidableEq

/-- Why a document cannot be read, and where. -/
structure Fault where
  path : List Step
  cause : Cause
  position : Option Position
  deriving Repr, DecidableEq

namespace Fault

/-- The fault seen from one level further out. -/
def under (step : Step) (fault : Fault) : Fault :=
  { fault with path := step :: fault.path }

/-- The cause, and the position if there is one. -/
def detail (fault : Fault) : String :=
  let text := match fault.cause with
    | .notJson cause => cause.message
    | .wrongShape cause => cause.message
  match fault.position with
  | none => text
  | some p => text ++ " at line " ++ p.line.repr ++ " column " ++ p.column.repr

/-- The path and the detail. -/
def message (fault : Fault) : String :=
  "at JSON path " ++ pathText fault.path ++ " → " ++ fault.detail

/-- A fault of the shape of a value that was not read from text. -/
def ofShape (cause : ShapeCause) : Fault :=
  ⟨[], .wrongShape cause, none⟩

/-- A fault of the shape of a value in a text. -/
def ofShapeAt (position : Position) (cause : ShapeCause) : Fault :=
  ⟨[], .wrongShape cause, some position⟩

/-- A fault of the text itself. -/
def ofBreach (breach : Breach) : Fault :=
  ⟨[], .notJson breach.cause, some breach.position⟩

end Fault

end ValidatorGen.Json

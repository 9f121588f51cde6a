import ValidatorGen.Diagnostic.Catalog
import ValidatorGen.Snapshot.Basic

/-!
# Diagnostics

A diagnostic is an entry of the catalog said about one type at one place of the source. Its message
is made when it is reported and is kept as a text; code and severity are looked up in the catalog
whenever they are asked for, so they cannot disagree with the entry.
-/

namespace ValidatorGen

/-- A place in a file. Line zero stands for the file as a whole. -/
structure Location where
  path : String
  line : UInt32
  column : UInt32
  deriving Repr, DecidableEq

namespace Location

/-- The place of a span in the file of a path. -/
def ofSpan (path : String) (span : Span) : Location :=
  ⟨path, span.line, span.column⟩

/-- The path, with line and column if the line is known. An unknown column is written as one. -/
def text (l : Location) : String :=
  if l.line = 0 then l.path
  else l.path ++ ":" ++ l.line.toNat.repr ++ ":" ++ (max l.column.toNat 1).repr

end Location

/-- What is said: the entry of the catalog, its message with the slots filled, and the place. -/
structure Diagnostic where
  id : DiagnosticId
  message : String
  location : Location
  deriving Repr, DecidableEq

namespace Diagnostic

/-- The diagnostic with the message of the catalog, the only way in which the pass makes one. -/
def report (id : DiagnosticId) (location : Location) (arguments : MessageArguments) : Diagnostic :=
  ⟨id, id.descriptor.template.fill arguments, location⟩

def code (d : Diagnostic) : String :=
  d.id.descriptor.code

def severity (d : Diagnostic) : Severity :=
  d.id.descriptor.severity

def isError (d : Diagnostic) : Bool :=
  d.severity = .error

/-- The severity and the code. -/
def headline (d : Diagnostic) : String :=
  d.severity.label ++ "[" ++ d.code ++ "]"

/-- The diagnostic on one line. -/
def text (d : Diagnostic) : String :=
  d.location.text ++ ": " ++ d.headline ++ ": " ++ d.message

/-- Whether one of several diagnostics is an error. -/
def anyError (ds : List Diagnostic) : Bool :=
  ds.any isError

/-- A diagnostic as a document. -/
def toJson (d : Diagnostic) : Json :=
  .object
    [("id", .string d.id.label),
     ("code", .string d.code),
     ("severity", .string d.severity.label),
     ("message", .string d.message),
     ("location", .object
       [("path", .string d.location.path),
        ("line", .ofUInt32 d.location.line),
        ("column", .ofUInt32 d.location.column)])]

end Diagnostic

end ValidatorGen

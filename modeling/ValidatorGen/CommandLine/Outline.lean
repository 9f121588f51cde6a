import ValidatorGen.CommandLine.Arguments
import ValidatorGen.Text.Quoted

/-!
# Invocations in outline

An invocation written out over several lines: every field and every item on a line of its own,
indented by how deep it lies, and followed by a comma. This is all that a command prints when it is
asked not to run; an outline is a list of lines, so that indenting one is indenting each.
-/

namespace ValidatorGen.CommandLine

/-- The lines of an outline. -/
abbrev Outline := List String

namespace Outline

/-- The lines one level deeper, with a comma after the last. -/
def inner (o : Outline) : Outline :=
  (match o.getLast? with
    | none => []
    | some last => o.dropLast ++ [last ++ ","]).map ("    " ++ ·)

def word (text : String) : Outline := [text]

def flag (b : Bool) : Outline := word (if b then "true" else "false")

/-- Lines between an opening and a closing one. -/
def enclosed (opening closing : String) (items : List Outline) : Outline :=
  opening :: (items.flatMap inner ++ [closing])

def list (items : List Outline) : Outline :=
  if items = [] then word "[]" else enclosed "[" "]" items

/-- A name with one thing in brackets. -/
def wrapped (name : String) (o : Outline) : Outline :=
  enclosed (name ++ "(") ")" [o]

/-- A thing with its name in front. -/
def labelled (name : String) : Outline → Outline
  | [] => [name ++ ": "]
  | first :: rest => (name ++ ": " ++ first) :: rest

/-- A thing with named parts. -/
def record (name : String) (fields : List (String × Outline)) : Outline :=
  enclosed (name ++ " \x7b") "\x7d" (fields.map fun f => labelled f.1 f.2)

/-- Something that may not be there. -/
def optional {α : Type} (outline : α → Outline) : Option α → Outline
  | none => word "None"
  | some a => wrapped "Some" (outline a)

def text (s : String) : Outline := word (Text.quoted s)

/-- A path between quotes, in which single quotes are escaped too. -/
def path (s : String) : Outline :=
  let quoteChar (c : Char) : List Char := if c = '\'' then ['\\', '\''] else Text.quoteChar c
  word (String.ofList ('"' :: (s.toList.flatMap quoteChar ++ ['"'])))

end Outline

open Outline

def inputOutline (s : InputSettings) : Outline :=
  record "InputSettings"
    [("ndjson", flag s.byLine), ("json_pointer", optional text s.pointer),
     ("jq_expr", optional text s.filter), ("input", list (s.inputs.map text))]

def GeneratorSettings.outline (s : GeneratorSettings) : Outline :=
  record "GeneratorSettings"
    [("config", optional path s.config), ("report_dropped", flag s.reportDropped)]

def OutputFormat.outline : OutputFormat → Outline
  | .human => word "Human"
  | .json => word "Json"

namespace RunSettings

/-- The fields that come first and those that come last. -/
def outlineSources (s : RunSettings) : List (String × Outline) :=
  [("input_settings", inputOutline s.input),
   ("generator_settings", s.generator.outline)]

def outlineManner (s : RunSettings) : List (String × Outline) :=
  [("format", s.format.outline), ("no_op", flag s.noOp)]

end RunSettings

def Command.outline : Command → Outline
  | .generate s outDir =>
    wrapped "Generate" (record "GenerateOut"
      (s.outlineSources ++ ("out_dir", optional path outDir) :: s.outlineManner))
  | .check s => wrapped "Check" (record "CheckOut" (s.outlineSources ++ s.outlineManner))
  | .catalog format => wrapped "Catalog" (record "CatalogOut" [("format", format.outline)])

/-- The whole invocation, as text. -/
def Invocation.outline (i : Invocation) : String :=
  "\n".intercalate (record "CommandLineInterface"
    [("cmd", i.command.outline), ("verbose", word i.verbosity.repr),
     ("no_color", flag i.noColor)])

end ValidatorGen.CommandLine

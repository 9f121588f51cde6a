import ValidatorGen.CommandLine.Arguments
import ValidatorGen.CommandLine.Outline
import ValidatorGen.CommandLine.Run
import ValidatorGen.Config
import ValidatorGen.ConfigFile
import ValidatorGen.Constraint
import ValidatorGen.Diagnostic.Basic
import ValidatorGen.Diagnostic.Catalog
import ValidatorGen.Diagnostic.Terminal
import ValidatorGen.Eligibility
import ValidatorGen.Extraction
import ValidatorGen.Files.Glob
import ValidatorGen.Files.Path
import ValidatorGen.Files.Pattern
import ValidatorGen.Files.Tree
import ValidatorGen.Files.Volume
import ValidatorGen.Filter.Evaluation
import ValidatorGen.Filter.Parser
import ValidatorGen.Filter.Syntax
import ValidatorGen.Filter.Token
import ValidatorGen.Filter.Value
import ValidatorGen.Fixture.Normal
import ValidatorGen.Fixture.Runner
import ValidatorGen.Fixture.Verdict
import ValidatorGen.Generation.Layout
import ValidatorGen.Generation.Pass
import ValidatorGen.Generation.Plan
import ValidatorGen.Json.Access
import ValidatorGen.Json.Basic
import ValidatorGen.Json.Cursor
import ValidatorGen.Json.Fault
import ValidatorGen.Json.Pointer
import ValidatorGen.Json.Token
import ValidatorGen.Json.Writer
import ValidatorGen.Json.Written
import ValidatorGen.Loading
import ValidatorGen.Main
import ValidatorGen.Number.Binary
import ValidatorGen.Number.Decimal
import ValidatorGen.Number.Layout
import ValidatorGen.Number.Power
import ValidatorGen.Number.Shortest
import ValidatorGen.Number.Word
import ValidatorGen.Operand
import ValidatorGen.Proofs.Accounting
import ValidatorGen.Proofs.AnnotationOrder
import ValidatorGen.Proofs.Conservation
import ValidatorGen.Proofs.Evaluation
import ValidatorGen.Proofs.ExactNumber
import ValidatorGen.Proofs.FirstPieces
import ValidatorGen.Proofs.Grouping
import ValidatorGen.Proofs.HintNames
import ValidatorGen.Proofs.Independence
import ValidatorGen.Proofs.KeyOrder
import ValidatorGen.Proofs.Keys
import ValidatorGen.Proofs.LiteralText
import ValidatorGen.Proofs.Nesting
import ValidatorGen.Proofs.Outcome
import ValidatorGen.Proofs.Related
import ValidatorGen.Proofs.Reopening
import ValidatorGen.Proofs.ReturnExpression
import ValidatorGen.Proofs.SameForm
import ValidatorGen.Proofs.Shape
import ValidatorGen.Proofs.SourceText
import ValidatorGen.Proofs.Splitting
import ValidatorGen.Proofs.Ties
import ValidatorGen.Proofs.Totality
import ValidatorGen.Proofs.Traversal
import ValidatorGen.Proofs.WrittenFiles
import ValidatorGen.Schema.Basic
import ValidatorGen.Schema.Conform
import ValidatorGen.Schema.Written
import ValidatorGen.Session
import ValidatorGen.Proofs.Sessions
import ValidatorGen.Snapshot.Basic
import ValidatorGen.Snapshot.Format
import ValidatorGen.Symbol.Accessibility
import ValidatorGen.Symbol.Candidate
import ValidatorGen.Symbol.Name
import ValidatorGen.Symbol.Piece
import ValidatorGen.Symbol.Table
import ValidatorGen.Text.Blank
import ValidatorGen.Text.DecimalDigit
import ValidatorGen.Text.Lines
import ValidatorGen.Text.Padded
import ValidatorGen.Text.Printable
import ValidatorGen.Text.Quoted
import ValidatorGen.Proofs.Matching
import ValidatorGen.Proofs.GlobalAlias
import ValidatorGen.Proofs.OutputPolicy
import ValidatorGen.Proofs.CompleteDocuments
import ValidatorGen.Proofs.Completion
import ValidatorGen.Proofs.InertParts
import ValidatorGen.Proofs.TextAndValue
import ValidatorGen.Proofs.DocumentPrefix
import ValidatorGen.Proofs.Preconditions
import ValidatorGen.Proofs.DecimalText
import ValidatorGen.Proofs.ExponentLimit
import ValidatorGen.Proofs.LiteralReadBack
import ValidatorGen.Proofs.Rounding
import ValidatorGen.Proofs.NumericOrder
import ValidatorGen.Proofs.ShortestText
import ValidatorGen.Proofs.FragmentText
import ValidatorGen.Proofs.SourceBlocks
import ValidatorGen.Proofs.DiagnosticPlaces
import ValidatorGen.Proofs.LineDocuments
import ValidatorGen.Proofs.NormalForm
import ValidatorGen.Proofs.ExpectedEntries
import ValidatorGen.Proofs.FixtureVerdict
import ValidatorGen.Proofs.SourceOrder
import ValidatorGen.Proofs.Registration
import ValidatorGen.Proofs.Numbering

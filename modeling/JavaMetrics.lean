import JavaMetrics.Analysis.Run
import JavaMetrics.Analysis.Source
import JavaMetrics.CommandLine.Arguments
import JavaMetrics.CommandLine.Command
import JavaMetrics.Failure
import JavaMetrics.Fault
import JavaMetrics.Files.Access
import JavaMetrics.Files.Discovery
import JavaMetrics.Files.Path
import JavaMetrics.Files.Tree
import JavaMetrics.Java.Chart
import JavaMetrics.Java.CompilationUnit
import JavaMetrics.Java.Declaration
import JavaMetrics.Java.Gap
import JavaMetrics.Java.Grammar
import JavaMetrics.Java.Grammar.Declarations
import JavaMetrics.Java.Grammar.Expressions
import JavaMetrics.Java.Grammar.Statements
import JavaMetrics.Java.Grammar.Types
import JavaMetrics.Java.Parse
import JavaMetrics.Java.Phrase
import JavaMetrics.Java.Symbol
import JavaMetrics.Java.Terminal
import JavaMetrics.Log.Event
import JavaMetrics.Log.Logging
import JavaMetrics.Log.Stamp
import JavaMetrics.Main
import JavaMetrics.Metrics.Aggregate
import JavaMetrics.Metrics.Complexity
import JavaMetrics.Metrics.Loc
import JavaMetrics.Metrics.Record
import JavaMetrics.Number.Binary64
import JavaMetrics.Number.Fixed
import JavaMetrics.Number.PairwiseSum
import JavaMetrics.Number.Rounding
import JavaMetrics.Number.Shortest
import JavaMetrics.Proofs.Analysis.DirectoryRun
import JavaMetrics.Proofs.Analysis.History
import JavaMetrics.Proofs.Analysis.Pool
import JavaMetrics.Proofs.Analysis.Stages
import JavaMetrics.Proofs.Analysis.Updates
import JavaMetrics.Proofs.CommandLine.Effects
import JavaMetrics.Proofs.CommandLine.ErrorLines
import JavaMetrics.Proofs.Files.LinkFree
import JavaMetrics.Proofs.Files.Listing
import JavaMetrics.Proofs.Files.Places
import JavaMetrics.Proofs.Files.Sources
import JavaMetrics.Proofs.Files.Writing
import JavaMetrics.Proofs.Java.MemberSpots
import JavaMetrics.Proofs.Java.Outline
import JavaMetrics.Proofs.Java.PackageName
import JavaMetrics.Proofs.Java.Placement
import JavaMetrics.Proofs.Java.Problems
import JavaMetrics.Proofs.Java.SourceLines
import JavaMetrics.Proofs.Java.Spans
import JavaMetrics.Proofs.Java.Uncommented
import JavaMetrics.Proofs.Metrics.CommentDeletion
import JavaMetrics.Proofs.Metrics.Comments
import JavaMetrics.Proofs.Metrics.ComplexityBounds
import JavaMetrics.Proofs.Metrics.DecisionPoints
import JavaMetrics.Proofs.Metrics.Figures
import JavaMetrics.Proofs.Metrics.LineCount
import JavaMetrics.Proofs.Metrics.LineDeletion
import JavaMetrics.Proofs.Metrics.LineLayout
import JavaMetrics.Proofs.Metrics.LineRanges
import JavaMetrics.Proofs.Metrics.LostLines
import JavaMetrics.Proofs.Metrics.NamedTypes
import JavaMetrics.Proofs.Metrics.OpenComments
import JavaMetrics.Proofs.Metrics.TypeRecords
import JavaMetrics.Proofs.Number.Nearest
import JavaMetrics.Proofs.Number.Quotient
import JavaMetrics.Proofs.Report.CsvReader
import JavaMetrics.Proofs.Report.DistinctNames
import JavaMetrics.Proofs.Report.Exports
import JavaMetrics.Proofs.Report.NameOrder
import JavaMetrics.Proofs.Report.PlainFront
import JavaMetrics.Proofs.Report.RowOrder
import JavaMetrics.Proofs.Report.SharedNames
import JavaMetrics.Proofs.Report.StableSort
import JavaMetrics.Proofs.Report.SummaryTotals
import JavaMetrics.Proofs.Report.Verbatim
import JavaMetrics.Proofs.Report.Wrapping
import JavaMetrics.Proofs.Settings.Checks
import JavaMetrics.Proofs.Settings.DeclaredTypes
import JavaMetrics.Proofs.Settings.DistinctKeys
import JavaMetrics.Proofs.Settings.Layers
import JavaMetrics.Proofs.Settings.ListVariable
import JavaMetrics.Proofs.Settings.Refusals
import JavaMetrics.Proofs.Settings.Tables
import JavaMetrics.Proofs.Syntax.Descent
import JavaMetrics.Proofs.Syntax.LineStarts
import JavaMetrics.Proofs.Syntax.Preorder
import JavaMetrics.Proofs.Syntax.Spot
import JavaMetrics.Proofs.Syntax.Uncommented
import JavaMetrics.Proofs.Text.Decoding
import JavaMetrics.Proofs.Text.Pieces
import JavaMetrics.Report.Csv
import JavaMetrics.Report.Markup
import JavaMetrics.Report.Summary
import JavaMetrics.Settings.Config
import JavaMetrics.Settings.Environment
import JavaMetrics.Settings.Load
import JavaMetrics.Settings.Toml.Document
import JavaMetrics.Settings.Toml.Scalar
import JavaMetrics.Settings.Value
import JavaMetrics.Syntax.Node
import JavaMetrics.Syntax.Position
import JavaMetrics.Syntax.Problem
import JavaMetrics.Syntax.Walk
import JavaMetrics.Text.Blank
import JavaMetrics.Text.CellWidth
import JavaMetrics.Text.CodePoints
import JavaMetrics.Text.Digit
import JavaMetrics.Text.Encoding
import JavaMetrics.Text.IdentifierChar
import JavaMetrics.Text.Printable
import JavaMetrics.Text.Quoted
import JavaMetrics.Text.Utf8

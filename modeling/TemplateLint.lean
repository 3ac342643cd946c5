import TemplateLint.Text.CodePoints
import TemplateLint.Text.Word
import TemplateLint.Text.Printable
import TemplateLint.Text.Blank
import TemplateLint.Text.Find
import TemplateLint.Text.Span
import TemplateLint.Text.Hex
import TemplateLint.Text.Quoted
import TemplateLint.Text.Decimal
import TemplateLint.Text.Utf8
import TemplateLint.Markup.Pattern
import TemplateLint.Markup.Head
import TemplateLint.Markup.Marker
import TemplateLint.Markup.Expression
import TemplateLint.Markup.BlockTag
import TemplateLint.Markup.Brace
import TemplateLint.Markup.Form
import TemplateLint.Markup.Loop
import TemplateLint.Diagnostic.Severity
import TemplateLint.Diagnostic.Message
import TemplateLint.Diagnostic.Spec
import TemplateLint.Diagnostic.Catalogue
import TemplateLint.Report.Basic
import TemplateLint.Json.Basic
import TemplateLint.Json.Printer
import TemplateLint.Report.Rendering
import TemplateLint.Lint.Options
import TemplateLint.Lint.Rule
import TemplateLint.Lint.BuiltinRules
import TemplateLint.Lint.Session
import TemplateLint.Files.Path
import TemplateLint.Files.Tree
import TemplateLint.Files.Template
import TemplateLint.CommandLine.Interface
import TemplateLint.CommandLine.Outcome
import TemplateLint.CommandLine.LintCommand
import TemplateLint.CommandLine.Benchmark
import TemplateLint.Main
import TemplateLint.Proofs.HeadRegex
import TemplateLint.Proofs.MarkerScan
import TemplateLint.Proofs.TagScan
import TemplateLint.Proofs.BraceBalance
import TemplateLint.Proofs.Findings
import TemplateLint.Proofs.Validity
import TemplateLint.Proofs.TemplateGrammar
import TemplateLint.Proofs.TokenScan
import TemplateLint.Proofs.WellFormedTemplates
import TemplateLint.Proofs.Reports
import TemplateLint.Proofs.Anchors
import TemplateLint.Proofs.Failures
import TemplateLint.Proofs.RuleOrder
import TemplateLint.Proofs.Sessions
import TemplateLint.Proofs.JsonReader
import TemplateLint.Proofs.JsonRoundTrip
import TemplateLint.Proofs.Encoding
import TemplateLint.Proofs.NestedLoops
import TemplateLint.Proofs.LoopSequences
import TemplateLint.Proofs.Arguments
import TemplateLint.Proofs.FileTrees
import TemplateLint.Proofs.LintRuns
import TemplateLint.Proofs.Stretches
import TemplateLint.Proofs.ExpressionScans
import TemplateLint.Proofs.FormSearch
import TemplateLint.Proofs.OpeningTags
import TemplateLint.Proofs.ExpressionPlaces
import TemplateLint.Proofs.ExcessBraces
import TemplateLint.Proofs.GuardWindows
import TemplateLint.Proofs.Tallies
import TemplateLint.Proofs.Buckets
import TemplateLint.Proofs.DecodingFaults
import TemplateLint.Proofs.ReportLines
import TemplateLint.Proofs.TemplateListings
import TemplateLint.Proofs.FilledMessages
import TemplateLint.Proofs.FirstOccurrences
import TemplateLint.Proofs.CatalogueIndex
import TemplateLint.Proofs.DisabledCodes
import TemplateLint.Proofs.MarkerTurns
import TemplateLint.Proofs.WidenedSpans
import TemplateLint.Proofs.HeadsCutShort

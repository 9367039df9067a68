import TestAudit.Command.Arguments
import TestAudit.Command.Moment
import TestAudit.Command.Run
import TestAudit.Criteria.Config
import TestAudit.Criteria.Criterion
import TestAudit.Criteria.Document
import TestAudit.Criteria.Source
import TestAudit.Criteria.Title
import TestAudit.Distinct
import TestAudit.Evidence.Image
import TestAudit.Evidence.Screenshot
import TestAudit.Files.Change
import TestAudit.Files.LogFile
import TestAudit.Files.Path
import TestAudit.Files.Project
import TestAudit.Files.Tree
import TestAudit.Finding.Batch
import TestAudit.Finding.Discovery
import TestAudit.Finding.Lint
import TestAudit.Finding.Scan
import TestAudit.Finding.Summary
import TestAudit.Finding.Violation
import TestAudit.Json.Integer
import TestAudit.Json.Parser
import TestAudit.Json.Printer
import TestAudit.Json.Value
import TestAudit.Log
import TestAudit.Main
import TestAudit.Numeric.Binary64
import TestAudit.Numeric.Shortest
import TestAudit.Pattern.Basic
import TestAudit.Pattern.Occurrence
import TestAudit.Report.Compile
import TestAudit.Report.Coverage
import TestAudit.Report.DefaultTemplate
import TestAudit.Report.Generate
import TestAudit.Report.Markup
import TestAudit.Report.Placeholder
import TestAudit.Rule.Catalog
import TestAudit.Rule.Kind
import TestAudit.Run.Document
import TestAudit.Run.Duration
import TestAudit.Run.Record
import TestAudit.Run.Results
import TestAudit.Session
import TestAudit.Source.CallSpan
import TestAudit.Source.Language
import TestAudit.Source.Literal
import TestAudit.Source.Mask
import TestAudit.Source.Receiver
import TestAudit.Source.TestName
import TestAudit.Text.Base64
import TestAudit.Text.Basic
import TestAudit.Text.Blank
import TestAudit.Text.Capital
import TestAudit.Text.CodeRanges
import TestAudit.Text.Colour
import TestAudit.Text.Digit
import TestAudit.Text.Entity
import TestAudit.Text.Lines
import TestAudit.Text.Numeral
import TestAudit.Text.Printable
import TestAudit.Text.Quoted
import TestAudit.Text.Segment
import TestAudit.Text.Utf8
import TestAudit.Text.Word
import TestAudit.Proofs.Criteria.Config
import TestAudit.Proofs.Criteria.ConfigLine
import TestAudit.Proofs.Criteria.Precedence
import TestAudit.Proofs.Criteria.Source
import TestAudit.Proofs.Criteria.Title
import TestAudit.Proofs.Criteria.WrittenConfig
import TestAudit.Proofs.Distinct
import TestAudit.Proofs.Files.Path
import TestAudit.Proofs.Files.Tree
import TestAudit.Proofs.Finding.AllowList
import TestAudit.Proofs.Finding.Batch
import TestAudit.Proofs.Finding.ClosedCall
import TestAudit.Proofs.Finding.Lint
import TestAudit.Proofs.Finding.LiteralContents
import TestAudit.Proofs.Finding.Scan
import TestAudit.Proofs.Json.Grammar
import TestAudit.Proofs.Json.Member
import TestAudit.Proofs.Json.Parser
import TestAudit.Proofs.Json.Printer
import TestAudit.Proofs.Numeric.Binary64
import TestAudit.Proofs.Outcome
import TestAudit.Proofs.Pattern.Match
import TestAudit.Proofs.Pattern.Occurrence
import TestAudit.Proofs.Report.Details
import TestAudit.Proofs.Report.Document
import TestAudit.Proofs.Report.Evidence
import TestAudit.Proofs.Report.Partition
import TestAudit.Proofs.Report.Placement
import TestAudit.Proofs.Report.Rendering
import TestAudit.Proofs.Report.Skeleton
import TestAudit.Proofs.Rule.Catalog
import TestAudit.Proofs.Run.Composition
import TestAudit.Proofs.Run.Document
import TestAudit.Proofs.Run.Duration
import TestAudit.Proofs.Run.Location
import TestAudit.Proofs.Run.Refusal
import TestAudit.Proofs.Run.Requirement
import TestAudit.Proofs.Run.Spec
import TestAudit.Proofs.Run.Suite
import TestAudit.Proofs.Run.Walk
import TestAudit.Proofs.Source.CallOpening
import TestAudit.Proofs.Source.CallSpan
import TestAudit.Proofs.Source.Closing
import TestAudit.Proofs.Source.LiteralContents
import TestAudit.Proofs.Source.LiteralMark
import TestAudit.Proofs.Source.Mask
import TestAudit.Proofs.Source.Receiver
import TestAudit.Proofs.Source.Snapshot
import TestAudit.Proofs.Source.SpanAgreement
import TestAudit.Proofs.Source.Token
import TestAudit.Proofs.Text.CharacterClass
import TestAudit.Proofs.Text.Line
import TestAudit.Proofs.Text.LineEnd
import TestAudit.Proofs.Text.Mark
import TestAudit.Proofs.Text.Nesting
import TestAudit.Proofs.Text.Numeral
import TestAudit.Proofs.Text.Order
import TestAudit.Proofs.Text.Trim
import TestAudit.Proofs.Text.WrittenNumber
import TestAudit.Proofs.Report.Template
import TestAudit.Proofs.Criteria.ConfigParts
import TestAudit.Proofs.Files.WellFormed
import TestAudit.Proofs.Finding.Discovery
import TestAudit.Proofs.Files.Change
import TestAudit.Proofs.Evidence.Image
import TestAudit.Proofs.Report.Writing
import TestAudit.Proofs.Source.Search
import TestAudit.Proofs.Finding.FileScope
import TestAudit.Proofs.Rule.Assignment
import TestAudit.Proofs.Finding.Assignment
import TestAudit.Proofs.Report.Verdict
import TestAudit.Proofs.Finding.Position
import TestAudit.Proofs.Pattern.Translation
import TestAudit.Proofs.Source.Translation
import TestAudit.Proofs.Finding.Translation
import TestAudit.Proofs.Source.LiteralEnd
import TestAudit.Proofs.Text.Write
import TestAudit.Proofs.Rule.Ownership
import TestAudit.Proofs.Source.MaskedWrite
import TestAudit.Proofs.Finding.Ownership
import TestAudit.Proofs.Run.FinalAttempt
import TestAudit.Proofs.Run.Flaky
import TestAudit.Proofs.Text.Segment
import TestAudit.Proofs.Text.Colour
import TestAudit.Proofs.Json.Escape
import TestAudit.Proofs.Run.Colour
import TestAudit.Proofs.Criteria.Describing
import TestAudit.Proofs.Criteria.FirstDescription
import TestAudit.Proofs.Text.Base64
import TestAudit.Proofs.Evidence.Binding
import TestAudit.Proofs.Report.Matrix
import TestAudit.Proofs.Report.TitleRows
import TestAudit.Proofs.Criteria.ConfigForms
import TestAudit.Proofs.Criteria.ConfigFault
import TestAudit.Proofs.Finding.FileLanguage
import TestAudit.Proofs.Source.SnapshotResult
import TestAudit.Proofs.Source.Chain
import TestAudit.Proofs.Loop
import TestAudit.Proofs.Source.LiteralStop
import TestAudit.Proofs.Source.Progress

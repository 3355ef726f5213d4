import ImportClosure.Text.Basic
import ImportClosure.Text.Blank
import ImportClosure.Text.Word
import ImportClosure.Text.Printable
import ImportClosure.Text.Sigma
import ImportClosure.Text.Case
import ImportClosure.Text.Quoted
import ImportClosure.Text.Utf8
import ImportClosure.Path.Basic
import ImportClosure.Log
import ImportClosure.Document.Layout
import ImportClosure.Document.Literal
import ImportClosure.Document.Directive
import ImportClosure.Document.Reference
import ImportClosure.Json.Value
import ImportClosure.Json.Writer
import ImportClosure.Json.Reader
import ImportClosure.Settings.Basic
import ImportClosure.Settings.DotEnv
import ImportClosure.Settings.Sources
import ImportClosure.FileTree.Basic
import ImportClosure.FileTree.Listing
import ImportClosure.FileTree.Edit
import ImportClosure.FileTree.Snapshot
import ImportClosure.Artifact
import ImportClosure.Entry
import ImportClosure.Locator
import ImportClosure.Syntax.Tree
import ImportClosure.Syntax.Specifiers
import ImportClosure.Syntax.Language
import ImportClosure.Syntax.Token
import ImportClosure.Syntax.Rule
import ImportClosure.Syntax.Grammar
import ImportClosure.Analyzer.Resolve
import ImportClosure.Analyzer.Basic
import ImportClosure.Analyzer.Reachable
import ImportClosure.Walk.Progress
import ImportClosure.Walk.Basic
import ImportClosure.Walk.Project
import ImportClosure.Text.Digit
import ImportClosure.Time.Instant
import ImportClosure.Time.Calendar
import ImportClosure.Report
import ImportClosure.CommandLine.Arguments
import ImportClosure.CommandLine.Usage
import ImportClosure.CommandLine.Threshold
import ImportClosure.CommandLine.Basic
import ImportClosure.CommandLine.Run
import ImportClosure.Main
import ImportClosure.Proofs.Text.Split
import ImportClosure.Proofs.Path.Normal
import ImportClosure.Proofs.Path.Join
import ImportClosure.Proofs.Path.Relative
import ImportClosure.Proofs.Path.Plain
import ImportClosure.Proofs.Path.Spelling
import ImportClosure.Proofs.Text.Count
import ImportClosure.Proofs.Text.Sorted
import ImportClosure.Proofs.Walk.Progress
import ImportClosure.Proofs.Walk.Visit
import ImportClosure.Proofs.Walk.Run
import ImportClosure.Proofs.Walk.History
import ImportClosure.Proofs.Walk.Marks
import ImportClosure.Proofs.Walk.Once
import ImportClosure.Proofs.Walk.Settled
import ImportClosure.Proofs.Walk.Agreement
import ImportClosure.Proofs.Walk.Closure
import ImportClosure.Proofs.Analyzer.Candidates
import ImportClosure.Proofs.Analyzer.Direct
import ImportClosure.Proofs.Analyzer.Exposed
import ImportClosure.Proofs.Analyzer.Reachable
import ImportClosure.Proofs.Analyzer.Calls
import ImportClosure.Proofs.FileTree.WellFormed
import ImportClosure.Proofs.FileTree.Linkless
import ImportClosure.Proofs.FileTree.Agreement
import ImportClosure.Proofs.FileTree.Listing
import ImportClosure.Proofs.Locator
import ImportClosure.Proofs.Entry
import ImportClosure.Proofs.Project.Sources
import ImportClosure.Proofs.Project.Run
import ImportClosure.Proofs.Project.Containment
import ImportClosure.Proofs.Project.Closure
import ImportClosure.Proofs.Project.Existence
import ImportClosure.Proofs.Project.Outside
import ImportClosure.Proofs.Project.Spelling
import ImportClosure.Proofs.Project.Walks
import ImportClosure.Proofs.Path.Below
import ImportClosure.Proofs.Project.Resolvers
import ImportClosure.Proofs.FileTree.Contents
import ImportClosure.Proofs.FileTree.BesideVendor
import ImportClosure.Proofs.Analyzer.Hiding
import ImportClosure.Proofs.Project.Vendor
import ImportClosure.Proofs.Project.Reported
import ImportClosure.Proofs.Project.Exclusion
import ImportClosure.Proofs.Project.Failures
import ImportClosure.Proofs.Document.Layout
import ImportClosure.Proofs.Document.Literal
import ImportClosure.Proofs.Document.Token
import ImportClosure.Proofs.Document.Clause
import ImportClosure.Proofs.Document.Directive
import ImportClosure.Proofs.Document.Reexport
import ImportClosure.Proofs.Document.Accepted
import ImportClosure.Proofs.Document.Spans
import ImportClosure.Proofs.Document.Shapes
import ImportClosure.Proofs.CommandLine.Outcome
import ImportClosure.Proofs.Json.RoundTrip
import ImportClosure.Proofs.Report
import ImportClosure.Proofs.CommandLine.Agreement
import ImportClosure.Proofs.Syntax.Specifiers
import ImportClosure.Proofs.Syntax.Comments
import ImportClosure.Proofs.Document.Composed
import ImportClosure.Proofs.FileTree.Reordered
import ImportClosure.Proofs.Search
import ImportClosure.Proofs.Document.Escape
import ImportClosure.Proofs.Document.Recovery
import ImportClosure.Proofs.Refusal
import ImportClosure.Proofs.Report.Order
import ImportClosure.Proofs.Report.Collected
import ImportClosure.Proofs.Report.Line
import ImportClosure.Proofs.Analyzer.Grammars
import ImportClosure.Proofs.Analyzer.Loader
import ImportClosure.Proofs.Analyzer.Broken
import ImportClosure.Proofs.Document.Cursor
import ImportClosure.Proofs.Document.Tracks
import ImportClosure.Proofs.Document.Progress
import ImportClosure.Proofs.Analyzer.Query
import ImportClosure.Proofs.Path.Separators
import ImportClosure.Proofs.Syntax.Literal
import ImportClosure.Proofs.Acceptance
import ImportClosure.Proofs.Document.Skipping
import ImportClosure.Proofs.Syntax.Place
import ImportClosure.Proofs.Syntax.SourceOrder

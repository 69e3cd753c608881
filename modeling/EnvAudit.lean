import EnvAudit.Calendar
import EnvAudit.CommandLine.Arguments
import EnvAudit.CommandLine.Command
import EnvAudit.CommandLine.Configure
import EnvAudit.CommandLine.Parser
import EnvAudit.CommandLine.Run
import EnvAudit.CommandLine.Scan
import EnvAudit.CommandLine.Session
import EnvAudit.Config.Basic
import EnvAudit.Config.File
import EnvAudit.Config.Ignore
import EnvAudit.Config.Template
import EnvAudit.Dotenv
import EnvAudit.Engine
import EnvAudit.FileScan
import EnvAudit.FileSystem.Basic
import EnvAudit.FileSystem.Contents
import EnvAudit.FileSystem.Order
import EnvAudit.Finding
import EnvAudit.Glob
import EnvAudit.Heuristic
import EnvAudit.Identifier
import EnvAudit.Json
import EnvAudit.Language.Basic
import EnvAudit.Language.Registry
import EnvAudit.Libraries
import EnvAudit.Literal
import EnvAudit.Log
import EnvAudit.Main
import EnvAudit.Number.Binary64
import EnvAudit.Number.Numeral
import EnvAudit.Path
import EnvAudit.Pattern.Basic
import EnvAudit.Pattern.CharClass
import EnvAudit.Pattern.Compiler
import EnvAudit.Pattern.Flags
import EnvAudit.Pattern.Reader
import EnvAudit.Pattern.Reader.Basic
import EnvAudit.Pattern.Reader.Count
import EnvAudit.Pattern.Reader.Escape
import EnvAudit.Pattern.Search
import EnvAudit.Pattern.Width
import EnvAudit.Proofs.CommandLine.Act
import EnvAudit.Proofs.CommandLine.Documents
import EnvAudit.Proofs.CommandLine.Edit
import EnvAudit.Proofs.CommandLine.Edits
import EnvAudit.Proofs.CommandLine.Formats
import EnvAudit.Proofs.CommandLine.IgnoredFile
import EnvAudit.Proofs.CommandLine.Output
import EnvAudit.Proofs.CommandLine.Prepare
import EnvAudit.Proofs.CommandLine.RuleFiles
import EnvAudit.Proofs.CommandLine.Scan
import EnvAudit.Proofs.CommandLine.ScanTwice
import EnvAudit.Proofs.CommandLine.Verdict
import EnvAudit.Proofs.Config.Answered
import EnvAudit.Proofs.Config.Globs
import EnvAudit.Proofs.Config.Ignored
import EnvAudit.Proofs.Config.Load
import EnvAudit.Proofs.Config.Parts
import EnvAudit.Proofs.Config.Replaced
import EnvAudit.Proofs.Config.RoundTrip
import EnvAudit.Proofs.Config.Saved
import EnvAudit.Proofs.Config.Unconfigured
import EnvAudit.Proofs.Dotenv.Agreement
import EnvAudit.Proofs.Dotenv.Append
import EnvAudit.Proofs.Dotenv.Behind
import EnvAudit.Proofs.Dotenv.Captured
import EnvAudit.Proofs.Dotenv.Decode
import EnvAudit.Proofs.Dotenv.Defined
import EnvAudit.Proofs.Dotenv.Definition
import EnvAudit.Proofs.Dotenv.Rounds
import EnvAudit.Proofs.Engine
import EnvAudit.Proofs.FileScan.Declared
import EnvAudit.Proofs.FileScan.Facts
import EnvAudit.Proofs.FileScan.Hardcoded
import EnvAudit.Proofs.FileScan.Recorded
import EnvAudit.Proofs.FileScan.Reexport
import EnvAudit.Proofs.FileScan.Suggests
import EnvAudit.Proofs.FileSystem.Budget
import EnvAudit.Proofs.FileSystem.Direct
import EnvAudit.Proofs.FileSystem.Lookup
import EnvAudit.Proofs.FileSystem.Put
import EnvAudit.Proofs.FileSystem.Relative
import EnvAudit.Proofs.FileSystem.Resolve
import EnvAudit.Proofs.FileSystem.Write
import EnvAudit.Proofs.Finding.Alike
import EnvAudit.Proofs.Finding.Facts
import EnvAudit.Proofs.Finding.Grown
import EnvAudit.Proofs.Finding.Ordered
import EnvAudit.Proofs.Finding.Sorted
import EnvAudit.Proofs.Finding.View
import EnvAudit.Proofs.Glob
import EnvAudit.Proofs.Heuristic
import EnvAudit.Proofs.Identifier
import EnvAudit.Proofs.Json.Reader
import EnvAudit.Proofs.Json.RoundTrip
import EnvAudit.Proofs.Keyed
import EnvAudit.Proofs.Language.Assigned
import EnvAudit.Proofs.Language.Bounded
import EnvAudit.Proofs.Language.Lines
import EnvAudit.Proofs.Language.Members
import EnvAudit.Proofs.Language.Named
import EnvAudit.Proofs.Language.Placed
import EnvAudit.Proofs.Literal
import EnvAudit.Proofs.Pattern.Advance
import EnvAudit.Proofs.Pattern.Classes
import EnvAudit.Proofs.Pattern.Ends
import EnvAudit.Proofs.Pattern.Fenced
import EnvAudit.Proofs.Pattern.First
import EnvAudit.Proofs.Pattern.Groups
import EnvAudit.Proofs.Pattern.Keeps
import EnvAudit.Proofs.Pattern.Leftmost
import EnvAudit.Proofs.Pattern.Letters
import EnvAudit.Proofs.Pattern.Marks
import EnvAudit.Proofs.Pattern.Named
import EnvAudit.Proofs.Pattern.Names
import EnvAudit.Proofs.Pattern.Occurs
import EnvAudit.Proofs.Pattern.Reads
import EnvAudit.Proofs.Pattern.Rounds
import EnvAudit.Proofs.Pattern.Within
import EnvAudit.Proofs.Report.Consistent
import EnvAudit.Proofs.Report.Masked
import EnvAudit.Proofs.Report.Selection
import EnvAudit.Proofs.Report.Shown
import EnvAudit.Proofs.Result
import EnvAudit.Proofs.RuleFile
import EnvAudit.Proofs.RuleFile.Valid
import EnvAudit.Proofs.SeverityOrder
import EnvAudit.Proofs.Source
import EnvAudit.Proofs.Source.Comments
import EnvAudit.Proofs.Source.Markup
import EnvAudit.Proofs.Terminal.Lines
import EnvAudit.Proofs.Terminal.Markup
import EnvAudit.Proofs.Terminal.Printable
import EnvAudit.Proofs.Terminal.Wrapped
import EnvAudit.Proofs.Text.Blank
import EnvAudit.Proofs.Text.Case
import EnvAudit.Proofs.Text.Newline
import EnvAudit.Proofs.Text.Split
import EnvAudit.Proofs.Text.Utf8
import EnvAudit.Proofs.Text.Word
import EnvAudit.Proofs.TreeScan.Evolved
import EnvAudit.Proofs.TreeScan.Exact
import EnvAudit.Proofs.TreeScan.Moved
import EnvAudit.Proofs.TreeScan.Ordered
import EnvAudit.Proofs.TreeScan.Reached
import EnvAudit.Proofs.Usage.Accessors
import EnvAudit.Proofs.Usage.Destructured
import EnvAudit.Proofs.Usage.Form
import EnvAudit.Proofs.Usage.Listed
import EnvAudit.Proofs.Usage.Named
import EnvAudit.Proofs.Usage.Quiet
import EnvAudit.Proofs.Usage.Silent
import EnvAudit.Proofs.Yaml.Shown
import EnvAudit.Report
import EnvAudit.Report.Document
import EnvAudit.Report.Terminal
import EnvAudit.Rule.Basic
import EnvAudit.Rule.BuiltIn
import EnvAudit.RuleFile
import EnvAudit.Severity
import EnvAudit.Source
import EnvAudit.Terminal.CellWidth
import EnvAudit.Terminal.Console
import EnvAudit.Terminal.Markup
import EnvAudit.Terminal.Screen
import EnvAudit.Terminal.Style
import EnvAudit.Terminal.Wrap
import EnvAudit.Text.Base64
import EnvAudit.Text.Blank
import EnvAudit.Text.Case
import EnvAudit.Text.CaseTable
import EnvAudit.Text.CharName
import EnvAudit.Text.CodePoint
import EnvAudit.Text.Hex
import EnvAudit.Text.NameChar
import EnvAudit.Text.Newline
import EnvAudit.Text.Printable
import EnvAudit.Text.Quoted
import EnvAudit.Text.Split
import EnvAudit.Text.Utf8
import EnvAudit.Text.Word
import EnvAudit.TreeScan
import EnvAudit.Usage
import EnvAudit.Yaml.Cursor
import EnvAudit.Yaml.Kind
import EnvAudit.Yaml.Library
import EnvAudit.Yaml.Node
import EnvAudit.Yaml.Read
import EnvAudit.Yaml.Scalar
import EnvAudit.Yaml.Scalars
import EnvAudit.Yaml.Tag
import EnvAudit.Yaml.Token
import EnvAudit.Yaml.Tokens
import EnvAudit.Yaml.Value
import EnvAudit.Yaml.Write

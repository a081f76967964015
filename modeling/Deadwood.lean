import Deadwood.Analysis
import Deadwood.Calendar
import Deadwood.Census
import Deadwood.CommandLine.Arguments
import Deadwood.CommandLine.Run
import Deadwood.Dart.Header
import Deadwood.Dart.Item
import Deadwood.Dart.Outline
import Deadwood.Dart.Token
import Deadwood.Decimal.Reading
import Deadwood.Decimal.Shortest
import Deadwood.Declaration
import Deadwood.Disk
import Deadwood.Environment.Basic
import Deadwood.Environment.File
import Deadwood.Extractor
import Deadwood.FileTree
import Deadwood.Host
import Deadwood.Import
import Deadwood.Index
import Deadwood.Literal.Basic
import Deadwood.Literal.Position
import Deadwood.Literal.Scanner
import Deadwood.Logging
import Deadwood.Main
import Deadwood.Manifest.Assets
import Deadwood.Manifest.Basic
import Deadwood.Manifest.Loading
import Deadwood.Markup
import Deadwood.Notice
import Deadwood.Path
import Deadwood.Pool
import Deadwood.Project
import Deadwood.Proofs.Literal.Decoding
import Deadwood.Proofs.Literal.Grammar
import Deadwood.Proofs.Literal.Scanning
import Deadwood.Proofs.Tree.Places
import Deadwood.Report.Basic
import Deadwood.Report.Json
import Deadwood.Report.Printing
import Deadwood.Settings
import Deadwood.Table
import Deadwood.Terminal
import Deadwood.Text.Alphanumeric
import Deadwood.Text.Basic
import Deadwood.Text.Blank
import Deadwood.Text.Malformed
import Deadwood.Text.Printable
import Deadwood.Text.Quoted
import Deadwood.Text.Utf8
import Deadwood.Text.Width
import Deadwood.Tree.Basic
import Deadwood.Tree.Walk
import Deadwood.Tree.Walker
import Deadwood.Usage
import Deadwood.Yaml.Construct
import Deadwood.Yaml.Cursor
import Deadwood.Yaml.Error
import Deadwood.Yaml.Lexeme
import Deadwood.Yaml.Lexer
import Deadwood.Yaml.Node
import Deadwood.Yaml.Scalar
import Deadwood.Yaml.Tag
import Deadwood.Yaml.Token
import Deadwood.Yaml.Value
import Deadwood.Proofs.Census
import Deadwood.Proofs.Declarations
import Deadwood.Proofs.Index
import Deadwood.Proofs.Findings
import Deadwood.Proofs.Unused
import Deadwood.Proofs.Order
import Deadwood.Proofs.Growth
import Deadwood.Proofs.Literal.Fragments
import Deadwood.Proofs.Path
import Deadwood.Proofs.Reduction
import Deadwood.Proofs.Assets
import Deadwood.Proofs.Literal.Runs
import Deadwood.Proofs.SourceFiles
import Deadwood.Proofs.FailSoft
import Deadwood.Proofs.Extraction
import Deadwood.Proofs.Tree.Addresses
import Deadwood.Proofs.Import
import Deadwood.Proofs.Packages
import Deadwood.Proofs.SingleWalk
import Deadwood.Proofs.Callbacks
import Deadwood.Proofs.Pool
import Deadwood.Proofs.Workers
import Deadwood.Proofs.Literal.Lookahead
import Deadwood.Proofs.Literal.Context
import Deadwood.Proofs.Literal.Indexed
import Deadwood.Proofs.Literal.Bounds
import Deadwood.Proofs.DirectiveLiterals
import Deadwood.Proofs.Tree.Defects
import Deadwood.Proofs.DirectiveWrappers
import Deadwood.Proofs.Needles
import Deadwood.Proofs.Manifest.Packages
import Deadwood.Proofs.Path.Normal
import Deadwood.Proofs.Path.Relative
import Deadwood.Proofs.FileTree.Collection
import Deadwood.Proofs.Manifest.Assets
import Deadwood.Proofs.Manifest.Spelling
import Deadwood.Proofs.Json.Report
import Deadwood.Proofs.Literal.Nesting
import Deadwood.Proofs.Utf8
import Deadwood.Proofs.CommandLine
import Deadwood.Proofs.Session
import Deadwood.Proofs.Host

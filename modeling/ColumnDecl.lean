import ColumnDecl.Text.CodeRanges
import ColumnDecl.Text.Space
import ColumnDecl.Text.Letter
import ColumnDecl.Text.Numeric
import ColumnDecl.Text.Printable
import ColumnDecl.Text.Trim
import ColumnDecl.Text.Index
import ColumnDecl.Text.Tabs
import ColumnDecl.Text.Quoted
import ColumnDecl.Span
import ColumnDecl.Token.Basic
import ColumnDecl.Token.Scan
import ColumnDecl.Token.Tokenize
import ColumnDecl.Token.Json
import ColumnDecl.Diagnostic.Basic
import ColumnDecl.Diagnostic.Malformed
import ColumnDecl.Diagnostic.Render
import ColumnDecl.Field.Basic
import ColumnDecl.Field.OfTokens
import ColumnDecl.Json.Value
import ColumnDecl.Json.Write
import ColumnDecl.Highlight.Lexer
import ColumnDecl.Highlight.Terminal
import ColumnDecl.Decimal.Binary
import ColumnDecl.Decimal.Shortest
import ColumnDecl.Toml.Value
import ColumnDecl.Toml.Scan
import ColumnDecl.Toml.Leaf
import ColumnDecl.Toml.Marks
import ColumnDecl.Toml.Document
import ColumnDecl.Toml.Parse
import ColumnDecl.Toml.Show
import ColumnDecl.Settings
import ColumnDecl.Cli.Spec
import ColumnDecl.Cli.Suggest
import ColumnDecl.Cli.Args
import ColumnDecl.Cli.Files
import ColumnDecl.Cli.Run
import ColumnDecl.Main
import ColumnDecl.Proofs.Grammar
import ColumnDecl.Proofs.Scanning
import ColumnDecl.Proofs.Steps
import ColumnDecl.Proofs.Acceptance
import ColumnDecl.Proofs.Regions
import ColumnDecl.Proofs.RoundTrip
import ColumnDecl.Proofs.Errors
import ColumnDecl.Proofs.Viable
import ColumnDecl.Proofs.FieldText
import ColumnDecl.Proofs.Relocation
import ColumnDecl.Proofs.Runs
import ColumnDecl.Proofs.Composition
import ColumnDecl.Proofs.Spans
import ColumnDecl.Proofs.Lexing
import ColumnDecl.Proofs.Highlighting
import ColumnDecl.Proofs.Located
import ColumnDecl.Proofs.Folding
import ColumnDecl.Proofs.Whitespace
import ColumnDecl.Proofs.Carets
import ColumnDecl.Proofs.Unclosed
import ColumnDecl.Proofs.Dump
import ColumnDecl.Proofs.Batch
import ColumnDecl.Proofs.FieldGroups
import ColumnDecl.Proofs.LengthArgument

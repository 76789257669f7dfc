import ProtoNames.Builtin.Descriptor
import ProtoNames.Builtin.Files
import ProtoNames.Builtin.Module
import ProtoNames.CommandLine.Invocation
import ProtoNames.CommandLine.Run
import ProtoNames.CommandLine.Switch
import ProtoNames.Compiler.Compilation
import ProtoNames.Compiler.Marker
import ProtoNames.Compiler.MarkerSet
import ProtoNames.Compiler.Printout
import ProtoNames.DottedName
import ProtoNames.File.Path
import ProtoNames.File.SourceSet
import ProtoNames.File.Store
import ProtoNames.File.Workspace
import ProtoNames.Log.Event
import ProtoNames.Log.Line
import ProtoNames.Main
import ProtoNames.Number.Binary64
import ProtoNames.Number.Literal
import ProtoNames.Number.Numeral
import ProtoNames.Number.Shortest
import ProtoNames.Proofs.AbsoluteNames
import ProtoNames.Proofs.Ambiguity
import ProtoNames.Proofs.Arrivals
import ProtoNames.Proofs.Attachment
import ProtoNames.Proofs.Bodies
import ProtoNames.Proofs.Braces
import ProtoNames.Proofs.Cancellation
import ProtoNames.Proofs.Catalogue
import ProtoNames.Proofs.Commands
import ProtoNames.Proofs.Containment
import ProtoNames.Proofs.Coverage
import ProtoNames.Proofs.Descriptors
import ProtoNames.Proofs.Diagnostics
import ProtoNames.Proofs.DigitLiterals
import ProtoNames.Proofs.EnumValues
import ProtoNames.Proofs.Expansion
import ProtoNames.Proofs.Fetch
import ProtoNames.Proofs.Identifiers
import ProtoNames.Proofs.ImportChain
import ProtoNames.Proofs.ImportSearch
import ProtoNames.Proofs.ImportedNames
import ProtoNames.Proofs.InnermostScope
import ProtoNames.Proofs.Inquiries
import ProtoNames.Proofs.IntegerLiterals
import ProtoNames.Proofs.Lexing
import ProtoNames.Proofs.Links
import ProtoNames.Proofs.Locality
import ProtoNames.Proofs.MapEntries
import ProtoNames.Proofs.NamedElements
import ProtoNames.Proofs.Names
import ProtoNames.Proofs.Nesting
import ProtoNames.Proofs.Notations
import ProtoNames.Proofs.NumberTokens
import ProtoNames.Proofs.Numerals
import ProtoNames.Proofs.OneDocument
import ProtoNames.Proofs.OneofOptions
import ProtoNames.Proofs.OwnScope
import ProtoNames.Proofs.Paths
import ProtoNames.Proofs.Patience
import ProtoNames.Proofs.Pieces
import ProtoNames.Proofs.Positions
import ProtoNames.Proofs.Printing
import ProtoNames.Proofs.Printouts
import ProtoNames.Proofs.Reading
import ProtoNames.Proofs.Refusals
import ProtoNames.Proofs.Repetition
import ProtoNames.Proofs.Replay
import ProtoNames.Proofs.Reports
import ProtoNames.Proofs.RoundTrip
import ProtoNames.Proofs.Run
import ProtoNames.Proofs.ScopedWalk
import ProtoNames.Proofs.Segments
import ProtoNames.Proofs.Sessions
import ProtoNames.Proofs.Stages
import ProtoNames.Proofs.Transparency
import ProtoNames.Proofs.Trimming
import ProtoNames.Proofs.Twins
import ProtoNames.Proofs.TypeScopes
import ProtoNames.Proofs.Visibility
import ProtoNames.Proofs.Walk
import ProtoNames.Proofs.WellFormed
import ProtoNames.Proofs.Worklist
import ProtoNames.Reference.Criteria
import ProtoNames.Reference.Match
import ProtoNames.Reference.Target
import ProtoNames.Report
import ProtoNames.Schema.Basic
import ProtoNames.Schema.Element
import ProtoNames.Schema.Grammar
import ProtoNames.Schema.Links
import ProtoNames.Schema.Printing
import ProtoNames.Schema.QualifiedName
import ProtoNames.Scope.Config
import ProtoNames.Scope.Import
import ProtoNames.Scope.Query
import ProtoNames.Scope.Resolve
import ProtoNames.Scope.Scope
import ProtoNames.Scope.Visibility
import ProtoNames.Text.Blank
import ProtoNames.Text.Digit
import ProtoNames.Text.Letter
import ProtoNames.Text.Lines
import ProtoNames.Text.Pieces
import ProtoNames.Text.Printable
import ProtoNames.Text.Quoted
import ProtoNames.Text.Range
import ProtoNames.Text.Utf8
import ProtoNames.Token.Basic
import ProtoNames.Token.Lexeme
import ProtoNames.Token.Reader
import ProtoNames.Token.Scan

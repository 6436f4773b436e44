import CallAtlas.Analysis
import CallAtlas.Calendar
import CallAtlas.CallTree
import CallAtlas.CommandLine.Command
import CallAtlas.CommandLine.Flag
import CallAtlas.CommandLine.Run
import CallAtlas.Datum
import CallAtlas.Decimal
import CallAtlas.Digest
import CallAtlas.Error
import CallAtlas.Failure
import CallAtlas.Files.Bytes
import CallAtlas.Files.Path
import CallAtlas.Files.Tree
import CallAtlas.Gml.Document
import CallAtlas.Gml.Sheet
import CallAtlas.Gml.Value
import CallAtlas.Location
import CallAtlas.Main
import CallAtlas.ModuleGraph
import CallAtlas.Notice
import CallAtlas.Numeral
import CallAtlas.QualifiedName
import CallAtlas.Registry.Basic
import CallAtlas.Registry.Entry
import CallAtlas.Registry.Merge
import CallAtlas.Registry.Resolve
import CallAtlas.Repository
import CallAtlas.Server.Address
import CallAtlas.Server.Basic
import CallAtlas.Server.Parameter
import CallAtlas.Server.Request
import CallAtlas.Server.Response
import CallAtlas.Service
import CallAtlas.Settings
import CallAtlas.Settings.Reference
import CallAtlas.Settings.VariableFile
import CallAtlas.Source.Balanced
import CallAtlas.Source.CallSite
import CallAtlas.Source.Comment
import CallAtlas.Source.Declaration
import CallAtlas.Source.ImportClause
import CallAtlas.Source.Literal
import CallAtlas.Source.Module
import CallAtlas.Source.Naming
import CallAtlas.Source.Offset
import CallAtlas.Source.Scan
import CallAtlas.Store.Archive
import CallAtlas.Store.Database
import CallAtlas.Store.Pattern
import CallAtlas.Store.Reading
import CallAtlas.Store.Row
import CallAtlas.Store.Target
import CallAtlas.Store.Writing
import CallAtlas.Table
import CallAtlas.Text.Blank
import CallAtlas.Text.Case
import CallAtlas.Text.Digit
import CallAtlas.Text.Encoding
import CallAtlas.Text.Letter
import CallAtlas.Text.Lines
import CallAtlas.Text.Piecewise
import CallAtlas.Text.Printable
import CallAtlas.Text.Quoted
import CallAtlas.Text.Ranges
import CallAtlas.Text.Word
import CallAtlas.Validation
import CallAtlas.Yaml.Cursor
import CallAtlas.Yaml.Document
import CallAtlas.Yaml.Fault
import CallAtlas.Yaml.Form
import CallAtlas.Yaml.Node
import CallAtlas.Yaml.Scalar
import CallAtlas.Yaml.Tag
import CallAtlas.Yaml.Token
import CallAtlas.Yaml.Value
import CallAtlas.Proofs.Registry.Reachable
import CallAtlas.Proofs.CallTree.Growth
import CallAtlas.Proofs.CallTree.Ways
import CallAtlas.Proofs.QualifiedName
import CallAtlas.Proofs.Registry.Assembly
import CallAtlas.Proofs.Source.Balanced
import CallAtlas.Proofs.Source.Scan
import CallAtlas.Proofs.Files.Tree
import CallAtlas.Proofs.Store.Saving
import CallAtlas.Proofs.Analysis.Accounting
import CallAtlas.Proofs.Store.Stored
import CallAtlas.Proofs.Store.Loading
import CallAtlas.Proofs.Canonical.Syntax
import CallAtlas.Proofs.Canonical.Scanning
import CallAtlas.Proofs.Canonical.Trees
import CallAtlas.Proofs.Canonical.Calls
import CallAtlas.Proofs.Canonical.Statements
import CallAtlas.Proofs.Canonical.Functions
import CallAtlas.Proofs.Canonical.Reading
import CallAtlas.Proofs.Canonical.Graph
import CallAtlas.Proofs.Gml.Sheet
import CallAtlas.Proofs.Gml.RoundTrip
import CallAtlas.Proofs.ModuleGraph.Conservation
import CallAtlas.Proofs.ModuleGraph.CallTrees
import CallAtlas.Proofs.Server.Effects
import CallAtlas.Proofs.Server.Freshness
import CallAtlas.Proofs.Registry.Additions
import CallAtlas.Proofs.Analysis.Workers
import CallAtlas.Proofs.Registry.ScanOrder
import CallAtlas.Proofs.Store.Transactions
import CallAtlas.Proofs.Source.Levels
import CallAtlas.Proofs.Source.Arities
import CallAtlas.Proofs.Written.Declarations
import CallAtlas.Proofs.Written.Recovery
import CallAtlas.Proofs.Written.Truncation
import CallAtlas.Proofs.Written.Expressions
import CallAtlas.Proofs.CallTree.BreadthFirst
import CallAtlas.Proofs.CallTree.Bound
import CallAtlas.Proofs.CallTree.Queue
import CallAtlas.Proofs.Registry.Overloads
import CallAtlas.Proofs.Registry.Destinations
import CallAtlas.Proofs.Text.Blank
import CallAtlas.Proofs.Numeral
import CallAtlas.Proofs.Registry.VendorImports
import CallAtlas.Proofs.CallTree.Query
import CallAtlas.Proofs.Source.ImportedNames
import CallAtlas.Proofs.Source.Legible
import CallAtlas.Proofs.Analysis.Legible
import CallAtlas.Proofs.Source.Places
import CallAtlas.Proofs.Location
import CallAtlas.Proofs.Location.Canonical
import CallAtlas.Proofs.Written.Imports
import CallAtlas.Proofs.Written.Callable
import CallAtlas.Proofs.Source.Heads
import CallAtlas.Proofs.Written.Layout
import CallAtlas.Proofs.Written.Annotations
import CallAtlas.Proofs.Registry.Merging
import CallAtlas.Proofs.Registry.Lengths
import CallAtlas.Proofs.ModuleGraph.Connected
import CallAtlas.Proofs.Source.Extents
import CallAtlas.Proofs.Source.Groups
import CallAtlas.Proofs.Gml.Grammar
import CallAtlas.Proofs.Store.Pattern
import CallAtlas.Proofs.Store.Listing
import CallAtlas.Proofs.Source.Sizes
import CallAtlas.Proofs.Store.Fields
import CallAtlas.Proofs.Source.Comments
import CallAtlas.Proofs.Source.LiteralEnds
import CallAtlas.Proofs.Source.BodyEnds
import CallAtlas.Proofs.Source.Segments

import QueryGraph.Binary64.Basic
import QueryGraph.Binary64.Reading
import QueryGraph.Binary64.Shortest
import QueryGraph.CommandLine.Arguments
import QueryGraph.CommandLine.Run
import QueryGraph.Compile.Basic
import QueryGraph.Compile.Error
import QueryGraph.Compile.Walk
import QueryGraph.Config
import QueryGraph.Config.Error
import QueryGraph.Config.Read
import QueryGraph.Document.Basic
import QueryGraph.Document.Build
import QueryGraph.Document.Decode
import QueryGraph.Document.Encode
import QueryGraph.Document.Error
import QueryGraph.Document.Read
import QueryGraph.Document.Scope
import QueryGraph.Environment.Basic
import QueryGraph.Environment.File
import QueryGraph.Environment.Line
import QueryGraph.Graph.Basic
import QueryGraph.Graph.Declarations
import QueryGraph.Graph.Dump
import QueryGraph.Graph.Numbering
import QueryGraph.Graph.Resolution
import QueryGraph.Join
import QueryGraph.Main
import QueryGraph.NameMap
import QueryGraph.Parameters
import QueryGraph.Path.Allocator
import QueryGraph.Path.Compile
import QueryGraph.Path.Compiled
import QueryGraph.Path.Identity
import QueryGraph.Report.Basic
import QueryGraph.Report.Json
import QueryGraph.Schema.Basic
import QueryGraph.Schema.Declaration
import QueryGraph.Schema.Error
import QueryGraph.Schema.Field
import QueryGraph.Schema.Read
import QueryGraph.Tree.Basic
import QueryGraph.Tree.Builder
import QueryGraph.Tree.Declared
import QueryGraph.Tree.Error
import QueryGraph.Tree.Freeze
import QueryGraph.Tree.Literal
import QueryGraph.Tree.Node
import QueryGraph.Tree.Operator
import QueryGraph.Unicode.Alphanumeric
import QueryGraph.Unicode.Basic
import QueryGraph.Unicode.Extending
import QueryGraph.Unicode.Quoted
import QueryGraph.Unicode.Unprintable
import QueryGraph.Value
import QueryGraph.Yaml.Complaint
import QueryGraph.Yaml.Defect
import QueryGraph.Yaml.Node
import QueryGraph.Yaml.Node.OfTokens
import QueryGraph.Yaml.Reading
import QueryGraph.Yaml.Resolve
import QueryGraph.Yaml.Scalar.Block
import QueryGraph.Yaml.Scalar.Folding
import QueryGraph.Yaml.Scalar.Plain
import QueryGraph.Yaml.Scalar.Quoted
import QueryGraph.Yaml.Tag
import QueryGraph.Yaml.Text
import QueryGraph.Yaml.Token
import QueryGraph.Yaml.Token.Properties
import QueryGraph.Yaml.Token.Stream
import QueryGraph.Yaml.Value
import QueryGraph.Proofs.Tree.Change
import QueryGraph.Proofs.Tree.Custody
import QueryGraph.Proofs.Tree.WellFormed
import QueryGraph.Proofs.Compile.Restoration
import QueryGraph.Proofs.Compile.Stability
import QueryGraph.Proofs.Compile.Scope
import QueryGraph.Proofs.Compile.Typing
import QueryGraph.Proofs.Graph.Contributor
import QueryGraph.Proofs.Graph.Forest
import QueryGraph.Proofs.Graph.Grant
import QueryGraph.Proofs.Graph.History
import QueryGraph.Proofs.Compile.Edges
import QueryGraph.Proofs.Compile.Sharing
import QueryGraph.Proofs.Compile.Minimality
import QueryGraph.Proofs.Compile.Forest
import QueryGraph.Proofs.Compile.Leniency
import QueryGraph.Proofs.Compile.Rendering
import QueryGraph.Proofs.Compile.Aliases
import QueryGraph.Proofs.Compile.Refusal
import QueryGraph.Proofs.Compile.Documents
import QueryGraph.Proofs.Compile.Inventory
import QueryGraph.Proofs.Compile.Termination
import QueryGraph.Proofs.Compile.Replay
import QueryGraph.Proofs.Compile.Fetches
import QueryGraph.Proofs.Graph.Evolution
import QueryGraph.Proofs.Compile.Collections
import QueryGraph.Proofs.Tree.Atomicity
import QueryGraph.Proofs.Graph.Commutation
import QueryGraph.Proofs.Graph.Refetch
import QueryGraph.Proofs.Compile.Shape
import QueryGraph.Proofs.Schema.Reading
import QueryGraph.Proofs.Path.Stack
import QueryGraph.Proofs.Compile.Collapse
import QueryGraph.Proofs.Document.Scoping.Documents
import QueryGraph.Proofs.Document.Encoding
import QueryGraph.Proofs.Tree.Operator
import QueryGraph.Proofs.Path.Recovery
import QueryGraph.Proofs.Compile.Wording
import QueryGraph.Proofs.Parameters.History

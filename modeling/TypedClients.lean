import TypedClients.AsyncApi.Document
import TypedClients.CommandLine.Arguments
import TypedClients.CommandLine.Run
import TypedClients.Config.Basic
import TypedClients.Config.Reader
import TypedClients.Endpoint.Basic
import TypedClients.Endpoint.Collection
import TypedClients.Endpoint.Grouping
import TypedClients.Entity.Cycle
import TypedClients.Entity.Module
import TypedClients.Filter.Basic
import TypedClients.Filter.CharMap
import TypedClients.Filter.LineEdit
import TypedClients.Filter.Script.Basic
import TypedClients.Filter.Script.Reader
import TypedClients.Filter.Script.Run
import TypedClients.Filter.Script.Token
import TypedClients.Formatter
import TypedClients.Generation
import TypedClients.Hook.Module
import TypedClients.Hook.Object
import TypedClients.Hook.Plan
import TypedClients.Hook.Source
import TypedClients.Hook.Url
import TypedClients.Inspection
import TypedClients.Json.Basic
import TypedClients.Json.Number
import TypedClients.Json.Pointer
import TypedClients.Json.Printer
import TypedClients.Json.Reader
import TypedClients.Json.Record
import TypedClients.Keyed
import TypedClients.Main
import TypedClients.Method
import TypedClients.Name.Case
import TypedClients.Name.Derived
import TypedClients.Name.Identifier
import TypedClients.Name.Version
import TypedClients.Node.Basic
import TypedClients.Node.Printer
import TypedClients.OpenApi.Document
import TypedClients.OpenApi.Reader
import TypedClients.Output
import TypedClients.Pattern.Basic
import TypedClients.Pattern.Reader
import TypedClients.Processor
import TypedClients.Schema.Basic
import TypedClients.Schema.Conversion
import TypedClients.Schema.Decode
import TypedClients.Schema.Resolution
import TypedClients.Script.Literal
import TypedClients.Script.Marker
import TypedClients.Socket.Channel
import TypedClients.Socket.Client
import TypedClients.Socket.Member
import TypedClients.Source
import TypedClients.Text.Basic
import TypedClients.Text.Digit
import TypedClients.Text.Uppercase
import TypedClients.Text.Utf8
import TypedClients.Text.Word
import TypedClients.Workspace.Basic
import TypedClients.Workspace.Path
import TypedClients.Workspace.Tree
import TypedClients.Yaml.Basic
import TypedClients.Yaml.Printer
import TypedClients.Yaml.Reader
import TypedClients.Yaml.Scalar
import TypedClients.Proofs.AsyncApi.Resolution
import TypedClients.Proofs.CommandLine.Generation
import TypedClients.Proofs.CommandLine.Staging
import TypedClients.Proofs.CommandLine.Validation
import TypedClients.Proofs.Conversion.Agreement
import TypedClients.Proofs.Conversion.Comparison
import TypedClients.Proofs.Conversion.Cycles
import TypedClients.Proofs.Conversion.Expansion
import TypedClients.Proofs.Conversion.Inside
import TypedClients.Proofs.Conversion.LocalReference
import TypedClients.Proofs.Conversion.Memory
import TypedClients.Proofs.Conversion.Naming
import TypedClients.Proofs.Conversion.Pointer
import TypedClients.Proofs.Conversion.References
import TypedClients.Proofs.Conversion.Shape
import TypedClients.Proofs.Conversion.Soundness
import TypedClients.Proofs.Conversion.Untyped
import TypedClients.Proofs.Endpoint.Collection
import TypedClients.Proofs.Endpoint.Grouping
import TypedClients.Proofs.Endpoint.Merging
import TypedClients.Proofs.Endpoint.Template
import TypedClients.Proofs.Entity.Annotation
import TypedClients.Proofs.Entity.Search
import TypedClients.Proofs.Generation.Comments
import TypedClients.Proofs.Generation.Listing
import TypedClients.Proofs.Generation.OwnNames
import TypedClients.Proofs.Generation.Paths
import TypedClients.Proofs.Generation.ReferenceClosure
import TypedClients.Proofs.Hook.Module
import TypedClients.Proofs.Hook.Object
import TypedClients.Proofs.Hook.ObjectText
import TypedClients.Proofs.Hook.Parameters
import TypedClients.Proofs.Hook.Planning
import TypedClients.Proofs.Hook.Positions
import TypedClients.Proofs.Hook.QueryKey
import TypedClients.Proofs.Hook.Replacement
import TypedClients.Proofs.Hook.Request
import TypedClients.Proofs.Hook.Url
import TypedClients.Proofs.Json.Parts
import TypedClients.Proofs.Json.Pointer
import TypedClients.Proofs.Json.Record
import TypedClients.Proofs.Json.Tree
import TypedClients.Proofs.Keyed
import TypedClients.Proofs.Name.Case
import TypedClients.Proofs.Name.Entity
import TypedClients.Proofs.Name.Legal
import TypedClients.Proofs.Name.Pascal
import TypedClients.Proofs.Name.Version
import TypedClients.Proofs.Node.Alike
import TypedClients.Proofs.Node.Canonical
import TypedClients.Proofs.Node.Parts
import TypedClients.Proofs.Node.Pieces
import TypedClients.Proofs.Node.TypeAgreement
import TypedClients.Proofs.Node.TypeText
import TypedClients.Proofs.Node.Validator
import TypedClients.Proofs.Node.ValidatorText
import TypedClients.Proofs.OpenApi.Annotations
import TypedClients.Proofs.OpenApi.Bare
import TypedClients.Proofs.OpenApi.Decode
import TypedClients.Proofs.Outcome
import TypedClients.Proofs.Output
import TypedClients.Proofs.Pointers
import TypedClients.Proofs.Schema.Fields
import TypedClients.Proofs.Schema.Form
import TypedClients.Proofs.Schema.Place
import TypedClients.Proofs.Schema.Validity
import TypedClients.Proofs.Script.Comment
import TypedClients.Proofs.Script.Operand
import TypedClients.Proofs.Script.TemplateLiteral
import TypedClients.Proofs.Script.Token
import TypedClients.Proofs.Script.TypeTerm
import TypedClients.Proofs.Socket.Client
import TypedClients.Proofs.Socket.Operations
import TypedClients.Proofs.Socket.Payload
import TypedClients.Proofs.Text.Lines
import TypedClients.Proofs.Text.Uppercase
import TypedClients.Proofs.Workspace.Growth
import TypedClients.Proofs.Workspace.Listing
import TypedClients.Proofs.Workspace.Tree
import TypedClients.Proofs.Workspace.Writing

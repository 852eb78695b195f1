import ModelServer.Api.Catalog
import ModelServer.Api.Free
import ModelServer.Api.Record
import ModelServer.Api.Request
import ModelServer.Command.Basic
import ModelServer.CommandLine.Files
import ModelServer.CommandLine.Invocation
import ModelServer.CommandLine.Options
import ModelServer.CommandLine.Pairs
import ModelServer.CommandLine.Path
import ModelServer.CommandLine.Run
import ModelServer.CommandLine.Usage
import ModelServer.Completion
import ModelServer.Depths
import ModelServer.Dictionary
import ModelServer.Execution.Variant
import ModelServer.Fault
import ModelServer.Grammar.Executable
import ModelServer.Grammar.Extension
import ModelServer.Grammar.Function
import ModelServer.Grammar.Runtime
import ModelServer.Grammar.Service
import ModelServer.Grammar.Testable
import ModelServer.Inspection.Basic
import ModelServer.Inspection.Element
import ModelServer.Inspection.Plan
import ModelServer.Json.Data
import ModelServer.Json.Key
import ModelServer.Json.Printer
import ModelServer.Json.Reader
import ModelServer.Main
import ModelServer.Model.Declaration
import ModelServer.Model.Element
import ModelServer.Model.Part
import ModelServer.Model.PartSchema
import ModelServer.Number.Binary64
import ModelServer.Number.Decimal
import ModelServer.Number.Entered
import ModelServer.Number.Layout
import ModelServer.Proofs.CommandLine.Listing
import ModelServer.Proofs.CommandLine.Pairs
import ModelServer.Proofs.CommandLine.Run
import ModelServer.Proofs.CommandLine.SameAnswers
import ModelServer.Proofs.CommandLine.Serving
import ModelServer.Proofs.Completion
import ModelServer.Proofs.Dictionary
import ModelServer.Proofs.Except
import ModelServer.Proofs.Fault
import ModelServer.Proofs.Grammar.Cancellation
import ModelServer.Proofs.Grammar.Capabilities
import ModelServer.Proofs.Grammar.Dispatch
import ModelServer.Proofs.Grammar.Offers
import ModelServer.Proofs.Grammar.References
import ModelServer.Proofs.Grammar.Selection
import ModelServer.Proofs.Grammar.SideBySide
import ModelServer.Proofs.Grammar.TableQuery
import ModelServer.Proofs.Grammar.Testing
import ModelServer.Proofs.Grammar.Uncompiled
import ModelServer.Proofs.Grammar.Wording
import ModelServer.Proofs.Json.Denoted
import ModelServer.Proofs.Json.Depth
import ModelServer.Proofs.Json.Literal
import ModelServer.Proofs.Json.Members
import ModelServer.Proofs.Json.Number
import ModelServer.Proofs.Json.Order
import ModelServer.Proofs.Json.Printed
import ModelServer.Proofs.Json.Pruned
import ModelServer.Proofs.Model.Declarations
import ModelServer.Proofs.Model.Edits
import ModelServer.Proofs.Model.Injective
import ModelServer.Proofs.Model.Options
import ModelServer.Proofs.Model.Ordered
import ModelServer.Proofs.Model.Parts
import ModelServer.Proofs.Model.Places
import ModelServer.Proofs.Model.Walk
import ModelServer.Proofs.Number.Decimal
import ModelServer.Proofs.Number.Range
import ModelServer.Proofs.Number.Rounding
import ModelServer.Proofs.Reference
import ModelServer.Proofs.Registration.Canonical
import ModelServer.Proofs.Registration.Response
import ModelServer.Proofs.Result
import ModelServer.Proofs.Schema.Checked
import ModelServer.Proofs.Schema.Edits
import ModelServer.Proofs.Schema.Inside
import ModelServer.Proofs.Schema.Written
import ModelServer.Proofs.Server.Agreement
import ModelServer.Proofs.Server.Boundary
import ModelServer.Proofs.Server.Characters
import ModelServer.Proofs.Server.Completions
import ModelServer.Proofs.Server.Definition
import ModelServer.Proofs.Server.Discovery
import ModelServer.Proofs.Server.Editor
import ModelServer.Proofs.Server.Edits
import ModelServer.Proofs.Server.Execution
import ModelServer.Proofs.Server.History
import ModelServer.Proofs.Server.Locality
import ModelServer.Proofs.Server.Parsing
import ModelServer.Proofs.Server.Project
import ModelServer.Proofs.Server.Proposals
import ModelServer.Proofs.Server.Queries
import ModelServer.Proofs.Server.References
import ModelServer.Proofs.Server.Registering
import ModelServer.Proofs.Server.Running
import ModelServer.Proofs.Server.SideBySide
import ModelServer.Proofs.Server.Testing
import ModelServer.Proofs.Server.Uncompiled
import ModelServer.Proofs.Session.Action
import ModelServer.Proofs.Session.Callbacks
import ModelServer.Proofs.Session.Frame
import ModelServer.Proofs.Session.LostCallbacks
import ModelServer.Proofs.Session.Recording
import ModelServer.Proofs.Session.Registry
import ModelServer.Proofs.Session.Shape
import ModelServer.Proofs.Session.SideBySide
import ModelServer.Proofs.Session.Tokens
import ModelServer.Proofs.Session.Watching
import ModelServer.Proofs.Settings.NormalForm
import ModelServer.Proofs.Settings.Reading
import ModelServer.Proofs.Source.Span
import ModelServer.Proofs.Testing.Outcome
import ModelServer.Proofs.Testing.Placement
import ModelServer.Proofs.Testing.Selection
import ModelServer.Proofs.Text.Digits
import ModelServer.Proofs.Text.Lines
import ModelServer.Proofs.Text.Order
import ModelServer.Proofs.Text.Repair
import ModelServer.Proofs.Text.Trim
import ModelServer.Proofs.Value
import ModelServer.Proofs.Workspace.Compilation
import ModelServer.Proofs.Workspace.Exactness
import ModelServer.Proofs.Workspace.Faithful
import ModelServer.Proofs.Workspace.Learning
import ModelServer.Proofs.Workspace.Parsing
import ModelServer.Proofs.Workspace.Resolution
import ModelServer.Proofs.Workspace.RoundTrip
import ModelServer.Proofs.Workspace.Soundness
import ModelServer.Reference
import ModelServer.Registration
import ModelServer.Registration.Client
import ModelServer.Result
import ModelServer.Schema.Checked
import ModelServer.Schema.Issue
import ModelServer.Schema.Scalar
import ModelServer.Server.Discovery
import ModelServer.Server.Editor
import ModelServer.Server.Handlers
import ModelServer.Server.Routing
import ModelServer.Server.Start
import ModelServer.Session.Action
import ModelServer.Session.Collaborator
import ModelServer.Session.Requests
import ModelServer.Session.Token
import ModelServer.Settings.Basic
import ModelServer.Settings.Collaborators
import ModelServer.Source.Given
import ModelServer.Source.Location
import ModelServer.Testing.Outcome
import ModelServer.Testing.Selection
import ModelServer.Text.Authority
import ModelServer.Text.Blank
import ModelServer.Text.Digits
import ModelServer.Text.Lines
import ModelServer.Text.Printable
import ModelServer.Text.Quoted
import ModelServer.Text.Similarity
import ModelServer.Text.Surrogate
import ModelServer.Text.Url
import ModelServer.Text.Utf8
import ModelServer.Toml.Literal
import ModelServer.Toml.Moment
import ModelServer.Toml.Number
import ModelServer.Toml.Reader
import ModelServer.Toml.Table
import ModelServer.Value
import ModelServer.Workspace.Document
import ModelServer.Workspace.Model
import ModelServer.Workspace.Provider
import ModelServer.Workspace.State

import MockApi.Text.UpperCase
import MockApi.Text.WideEncoding
import MockApi.Value.Equality
import MockApi.Value.Order
import MockApi.Value.Arithmetic
import MockApi.Value.Property
import MockApi.Value.Json
import MockApi.Json.Reader
import MockApi.Condition.Expr
import MockApi.Condition.Token
import MockApi.Condition.Lexer
import MockApi.Condition.Basic
import MockApi.Request.Context
import MockApi.Template.Placeholder
import MockApi.Template.Render
import MockApi.Value.Shown
import MockApi.Endpoint.Definition
import MockApi.Url.Basic
import MockApi.Route.Registry
import MockApi.Endpoint.Selection
import MockApi.Route.Dispatch
import MockApi.Definitions.File
import MockApi.Definitions.Demo
import MockApi.Definitions.Review
import MockApi.Route.Policy
import MockApi.Settings.Source
import MockApi.Server.Answer
import MockApi.CommandLine.Grammar
import MockApi.CommandLine.Run
import MockApi.Main
import MockApi.Proofs.Outcome
import MockApi.Proofs.Condition.Grammar
import MockApi.Proofs.Condition.Soundness
import MockApi.Proofs.Condition.Completeness
import MockApi.Proofs.Condition.Recognition
import MockApi.Proofs.Condition.Scanning
import MockApi.Proofs.Condition.Printing
import MockApi.Proofs.Condition.RoundTrip
import MockApi.Proofs.Endpoint.Selection
import MockApi.Proofs.Value.Writing
import MockApi.Proofs.Template.Filling
import MockApi.Proofs.Route.Dispatch
import MockApi.Proofs.Route.History
import MockApi.Proofs.Route.Stability
import MockApi.Proofs.Json.Compact
import MockApi.Proofs.Json.RoundTrip
import MockApi.Proofs.Template.Documents
import MockApi.Proofs.Template.Draft
import MockApi.Proofs.Template.Commutation
import MockApi.Proofs.Template.Patching
import MockApi.Proofs.Template.Replacing
import MockApi.Proofs.Template.Modes
import MockApi.Proofs.Endpoint.RoundTrip
import MockApi.Proofs.Route.Batch
import MockApi.Proofs.Route.Export
import MockApi.Proofs.Json.Reading
import MockApi.Proofs.Json.Sending
import MockApi.Proofs.Endpoint.Refusal
import MockApi.Proofs.Server.Import
import MockApi.Proofs.Server.Save
import MockApi.Proofs.Condition.Trimming
import MockApi.Proofs.Table
import MockApi.Proofs.Route.Matching
import MockApi.Proofs.Route.Substitution
import MockApi.Proofs.Definitions.Review
import MockApi.Proofs.Url.Path
import MockApi.Proofs.Url.Parts
import MockApi.Proofs.Route.OwnPath
import MockApi.Proofs.Route.Lookup
import MockApi.Proofs.Server.Run
import MockApi.Proofs.Server.Metrics
import MockApi.Proofs.Value.Times
import MockApi.Proofs.Route.Times
import MockApi.Proofs.Server.Reset
import MockApi.Proofs.Text.Span
import MockApi.Proofs.Template.Quoting
import MockApi.Proofs.Number.Decimal
import MockApi.Proofs.Json.Numbers
import MockApi.Proofs.Json.Writing
import MockApi.Proofs.Route.Numbers
import MockApi.Proofs.Template.Decomposition
import MockApi.Proofs.Url.Target
import MockApi.Proofs.Route.Results
import MockApi.Proofs.Server.Form
import MockApi.Proofs.Server.Showing
import MockApi.Proofs.Server.Rehearsal
import MockApi.Proofs.Condition.Levels
import MockApi.Proofs.Condition.SelfEquality
import MockApi.Proofs.Condition.Connectives
import MockApi.Proofs.Condition.Lexemes
import MockApi.Proofs.Condition.Spacing
import MockApi.Proofs.Guarded.Fault
import MockApi.Proofs.Guarded.Lexer
import MockApi.Proofs.Guarded.Parser
import MockApi.Proofs.Guarded.Eval
import MockApi.Proofs.Guarded.Condition
import MockApi.Proofs.Value.Texts
import MockApi.Proofs.Value.Property
import MockApi.Proofs.Number.Order
import MockApi.Proofs.Value.Equality
import MockApi.Proofs.Value.Order
import MockApi.Proofs.Json.Literals
import MockApi.Proofs.Condition.Literals
import MockApi.Proofs.Text.Utf8
import MockApi.Proofs.Url.Percent
import MockApi.Proofs.Url.Query
import MockApi.Proofs.Route.Creation
import MockApi.Proofs.Settings.Acceptance
import MockApi.Proofs.Endpoint.Schema
import MockApi.Proofs.Number.Conformance
import MockApi.Proofs.Json.Places
import MockApi.Proofs.Json.Limits
import MockApi.Proofs.Server.Content
import MockApi.Proofs.Definitions.Loading
import MockApi.Proofs.CommandLine.Validate
import MockApi.Proofs.Server.Sending
import MockApi.Proofs.Number.Unsigned
import MockApi.Proofs.Condition.Numerals
import MockApi.Proofs.Template.Alone
import MockApi.Proofs.Request.Integers
import MockApi.Proofs.Number.ScriptText
import MockApi.Proofs.Value.Document
import MockApi.Proofs.Template.Numbers

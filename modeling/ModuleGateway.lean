import ModuleGateway.AssetKind
import ModuleGateway.Build.Compiler
import ModuleGateway.Build.Coordinator
import ModuleGateway.Build.Outcome
import ModuleGateway.Bytes
import ModuleGateway.CommandLine.Arguments
import ModuleGateway.CommandLine.Help
import ModuleGateway.CommandLine.Run
import ModuleGateway.Diagnostic
import ModuleGateway.FileSystem.Access
import ModuleGateway.FileSystem.Tree
import ModuleGateway.FileSystem.Walk
import ModuleGateway.Freshness
import ModuleGateway.Gateway.Basic
import ModuleGateway.Gateway.Building
import ModuleGateway.Gateway.Message
import ModuleGateway.Gateway.Prewarm
import ModuleGateway.Gateway.Routing
import ModuleGateway.Gateway.Serving
import ModuleGateway.Http.Listening
import ModuleGateway.Http.MediaType
import ModuleGateway.Http.Message
import ModuleGateway.Http.Router
import ModuleGateway.Http.StaticFiles
import ModuleGateway.Json.Quote
import ModuleGateway.Json.Read
import ModuleGateway.Json.Value
import ModuleGateway.Main
import ModuleGateway.Package.Locate
import ModuleGateway.Package.Manifest
import ModuleGateway.Package.Resolve
import ModuleGateway.Path
import ModuleGateway.Relink.Importer
import ModuleGateway.Relink.Scanner
import ModuleGateway.Relink.Splice
import ModuleGateway.Script.Annotation
import ModuleGateway.Script.Define
import ModuleGateway.Script.Expression
import ModuleGateway.Script.Function
import ModuleGateway.Script.Grammar
import ModuleGateway.Script.Layout
import ModuleGateway.Script.Markup
import ModuleGateway.Script.Module
import ModuleGateway.Script.Number
import ModuleGateway.Script.Parser
import ModuleGateway.Script.Printer
import ModuleGateway.Script.Scope
import ModuleGateway.Script.Statement
import ModuleGateway.Script.Token
import ModuleGateway.Script.Tree
import ModuleGateway.Settings.Basic
import ModuleGateway.Settings.Document
import ModuleGateway.Source
import ModuleGateway.Specifier.Basic
import ModuleGateway.Specifier.EntryName
import ModuleGateway.Store
import ModuleGateway.Text.Blank
import ModuleGateway.Text.Digits
import ModuleGateway.Text.Hex
import ModuleGateway.Text.Invisible
import ModuleGateway.Text.Name
import ModuleGateway.Text.Percent
import ModuleGateway.Text.Quoted
import ModuleGateway.Text.Split
import ModuleGateway.Toml.Moment
import ModuleGateway.Toml.Read
import ModuleGateway.Toml.Write
import ModuleGateway.Trust.Registry
import ModuleGateway.Trust.Scan
import ModuleGateway.Proofs.Relink.Reading
import ModuleGateway.Proofs.Relink.Splicing
import ModuleGateway.Proofs.Relink.Scanning
import ModuleGateway.Proofs.Relink.Lookahead
import ModuleGateway.Proofs.Relink.Construct
import ModuleGateway.Proofs.Relink.Nesting
import ModuleGateway.Proofs.Relink.Opaque
import ModuleGateway.Proofs.Relink.Grammar
import ModuleGateway.Proofs.Relink.Tokens
import ModuleGateway.Proofs.Relink.Words
import ModuleGateway.Proofs.Specifier.Package
import ModuleGateway.Proofs.Trust.Registry
import ModuleGateway.Proofs.Gateway.Routing
import ModuleGateway.Proofs.Package.Resolve
import ModuleGateway.Proofs.Gateway.Following
import ModuleGateway.Proofs.FileSystem.Tree
import ModuleGateway.Proofs.FileSystem.Walk
import ModuleGateway.Proofs.FileSystem.Directory
import ModuleGateway.Proofs.FileSystem.Access
import ModuleGateway.Proofs.Specifier.EntryName
import ModuleGateway.Proofs.Store.Shelf
import ModuleGateway.Proofs.Gateway.Service
import ModuleGateway.Proofs.Relink.Linking
import ModuleGateway.Proofs.Gateway.Bookkeeping
import ModuleGateway.Proofs.Gateway.BuiltOnce
import ModuleGateway.Proofs.Store.Failure
import ModuleGateway.Proofs.Gateway.Provenance
import ModuleGateway.Proofs.Gateway.Trusting
import ModuleGateway.Proofs.Gateway.Sequential
import ModuleGateway.Proofs.Build.History
import ModuleGateway.Proofs.Build.Delivery
import ModuleGateway.Proofs.Build.Independence
import ModuleGateway.Proofs.Gateway.TrustSources
import ModuleGateway.Proofs.FileSystem.Sight
import ModuleGateway.Proofs.FileSystem.Canonical
import ModuleGateway.Proofs.Source.Outside
import ModuleGateway.Proofs.Source.Plain
import ModuleGateway.Proofs.Source.Kind
import ModuleGateway.Proofs.Gateway.BuildKeys
import ModuleGateway.Proofs.Package.Locate
import ModuleGateway.Proofs.Gateway.Confinement
import ModuleGateway.Proofs.Text.Hex
import ModuleGateway.Proofs.Freshness
import ModuleGateway.Proofs.Gateway.Compiling
import ModuleGateway.Proofs.Gateway.Revalidation
import ModuleGateway.Proofs.Gateway.Transparency
import ModuleGateway.Proofs.Relink.Clauses
import ModuleGateway.Proofs.Relink.Expressions
import ModuleGateway.Proofs.Relink.Printing
import ModuleGateway.Proofs.Gateway.FailedBuild
import ModuleGateway.Proofs.Path
import ModuleGateway.Proofs.Relink.Rescanning
import ModuleGateway.Proofs.Relink.Settling
import ModuleGateway.Proofs.Relink.Relative
import ModuleGateway.Proofs.Gateway.Misses
import ModuleGateway.Proofs.Relink.Regexes
import ModuleGateway.Proofs.Relink.Unterminated
import ModuleGateway.Proofs.Relink.Members
import ModuleGateway.Proofs.Relink.Remarks
import ModuleGateway.Proofs.Package.Exports
import ModuleGateway.Proofs.Settings
import ModuleGateway.Proofs.Gateway.Dispatch
import ModuleGateway.Proofs.FileSystem.Parents
import ModuleGateway.Proofs.FileSystem.Seat
import ModuleGateway.Proofs.Store.Refinement
import ModuleGateway.Proofs.Specifier.Escaping
import ModuleGateway.Proofs.Specifier.Servable
import ModuleGateway.Proofs.Specifier.Safety
import ModuleGateway.Proofs.Store.Naming
import ModuleGateway.Proofs.Store.Writing
import ModuleGateway.Proofs.Relink.Staying
import ModuleGateway.Proofs.EntityTag
import ModuleGateway.Proofs.Text.Literal
import ModuleGateway.Proofs.Diagnostic.Style
import ModuleGateway.Proofs.Diagnostic.Quoting
import ModuleGateway.Proofs.Relink.Quiet
import ModuleGateway.Proofs.Diagnostic.Script
import ModuleGateway.Proofs.FileSystem.Places
import ModuleGateway.Proofs.Trust.Scan
import ModuleGateway.Proofs.Gateway.Seeding
import ModuleGateway.Proofs.Trust.Registering
import ModuleGateway.Proofs.Gateway.Waiting
import ModuleGateway.Proofs.CommandLine.Prewarming
import ModuleGateway.Proofs.Text.Utf8
import ModuleGateway.Proofs.Relink.Bytewise
import ModuleGateway.Proofs.Relink.ByteReaders
import ModuleGateway.Proofs.Relink.ByteTokens
import ModuleGateway.Proofs.Relink.Boundaries
import ModuleGateway.Proofs.Relink.Braces
import ModuleGateway.Proofs.Gateway.Steady
import ModuleGateway.Proofs.Gateway.Prewarmed
import ModuleGateway.Proofs.Gateway.Finishing
import ModuleGateway.Proofs.Gateway.Delivering

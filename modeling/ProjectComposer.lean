import ProjectComposer.Artifact.Category
import ProjectComposer.Artifact.Output
import ProjectComposer.Blueprint.Basic
import ProjectComposer.Blueprint.Codec
import ProjectComposer.BuiltIn.Frontend
import ProjectComposer.BuiltIn.FrontendTemplates
import ProjectComposer.BuiltIn.NftContract
import ProjectComposer.BuiltIn.Package
import ProjectComposer.BuiltIn.QualityGates
import ProjectComposer.BuiltIn.Registry
import ProjectComposer.BuiltIn.TelegramCommands
import ProjectComposer.BuiltIn.TelegramNotifications
import ProjectComposer.BuiltIn.WalletAuth
import ProjectComposer.CommandLine.Arguments
import ProjectComposer.CommandLine.Files
import ProjectComposer.CommandLine.Help
import ProjectComposer.CommandLine.Program
import ProjectComposer.Compilation
import ProjectComposer.Diagnostic.Basic
import ProjectComposer.Diagnostic.Fault
import ProjectComposer.Execution.Inputs
import ProjectComposer.Execution.Interleaving
import ProjectComposer.Execution.Run
import ProjectComposer.Graph.Basic
import ProjectComposer.Graph.Cycle
import ProjectComposer.Graph.Links
import ProjectComposer.Graph.Plan
import ProjectComposer.Graph.Queue
import ProjectComposer.Json.Literal
import ProjectComposer.Json.Reader
import ProjectComposer.Json.Value
import ProjectComposer.Json.Writer
import ProjectComposer.Layout.Basic
import ProjectComposer.Layout.Configured
import ProjectComposer.Layout.Directory
import ProjectComposer.Layout.Routing
import ProjectComposer.Main
import ProjectComposer.Number.Binary64
import ProjectComposer.Number.Numeral
import ProjectComposer.Number.Shortest
import ProjectComposer.Options.Config
import ProjectComposer.Options.FrontendScaffold
import ProjectComposer.Options.Labels
import ProjectComposer.Options.NftContract
import ProjectComposer.Options.QualityGates
import ProjectComposer.Options.TelegramCommands
import ProjectComposer.Options.TelegramNotifications
import ProjectComposer.Options.WalletAuth
import ProjectComposer.Path.Glob
import ProjectComposer.Path.Normal
import ProjectComposer.Plugin.Basic
import ProjectComposer.Plugin.Port
import ProjectComposer.Plugin.Registry
import ProjectComposer.ProjectTree.Basic
import ProjectComposer.ProjectTree.Merge
import ProjectComposer.ProjectTree.RootFiles
import ProjectComposer.Proofs.BuiltIn.AppRoot
import ProjectComposer.Proofs.BuiltIn.Clashes
import ProjectComposer.Proofs.BuiltIn.Footprint
import ProjectComposer.Proofs.BuiltIn.Keys
import ProjectComposer.Proofs.BuiltIn.Outputs
import ProjectComposer.Proofs.BuiltIn.Places
import ProjectComposer.Proofs.BuiltIn.RootFree
import ProjectComposer.Proofs.BuiltIn.Runs
import ProjectComposer.Proofs.CommandLine.Statuses
import ProjectComposer.Proofs.Compilation.Containment
import ProjectComposer.Proofs.Compilation.Contents
import ProjectComposer.Proofs.Compilation.Embedded
import ProjectComposer.Proofs.Compilation.Ending
import ProjectComposer.Proofs.Compilation.GivenRegistry
import ProjectComposer.Proofs.Compilation.Inserted
import ProjectComposer.Proofs.Compilation.Nesting
import ProjectComposer.Proofs.Compilation.OneOfEach
import ProjectComposer.Proofs.Compilation.Permuted
import ProjectComposer.Proofs.Compilation.Settled
import ProjectComposer.Proofs.Compilation.Undocumented
import ProjectComposer.Proofs.Diagnostic.Reported
import ProjectComposer.Proofs.Except
import ProjectComposer.Proofs.Execution.Calls
import ProjectComposer.Proofs.Execution.Completed
import ProjectComposer.Proofs.Execution.Interleaving
import ProjectComposer.Proofs.Execution.Slots
import ProjectComposer.Proofs.Execution.Visibility
import ProjectComposer.Proofs.Graph.Arcs
import ProjectComposer.Proofs.Graph.Candidates
import ProjectComposer.Proofs.Graph.Countdown
import ProjectComposer.Proofs.Graph.Layers
import ProjectComposer.Proofs.Graph.Links
import ProjectComposer.Proofs.Graph.Queue
import ProjectComposer.Proofs.Graph.Search
import ProjectComposer.Proofs.Graph.ShortestCycle
import ProjectComposer.Proofs.Graph.Walk
import ProjectComposer.Proofs.Json.Escapes
import ProjectComposer.Proofs.Json.ReadBack
import ProjectComposer.Proofs.Layout.Directories
import ProjectComposer.Proofs.Layout.Mapped
import ProjectComposer.Proofs.Layout.Placed
import ProjectComposer.Proofs.Layout.Routed
import ProjectComposer.Proofs.Layout.Spelled
import ProjectComposer.Proofs.Number.Digits
import ProjectComposer.Proofs.Number.Settings
import ProjectComposer.Proofs.Path.Clean
import ProjectComposer.Proofs.Path.Descent
import ProjectComposer.Proofs.Path.Fixed
import ProjectComposer.Proofs.Path.Glob
import ProjectComposer.Proofs.Path.Joined
import ProjectComposer.Proofs.Path.LastName
import ProjectComposer.Proofs.Path.Leading
import ProjectComposer.Proofs.Path.LiteralDirectory
import ProjectComposer.Proofs.Path.Nesting
import ProjectComposer.Proofs.Path.Normal
import ProjectComposer.Proofs.Path.Pieces
import ProjectComposer.Proofs.Path.Plain
import ProjectComposer.Proofs.Plugin.Registration
import ProjectComposer.Proofs.ProjectTree.AddFiles
import ProjectComposer.Proofs.ProjectTree.Disputes
import ProjectComposer.Proofs.ProjectTree.Extended
import ProjectComposer.Proofs.ProjectTree.Fewer
import ProjectComposer.Proofs.ProjectTree.Groups
import ProjectComposer.Proofs.ProjectTree.Merged
import ProjectComposer.Proofs.ProjectTree.OrderFree
import ProjectComposer.Proofs.ProjectTree.Placement
import ProjectComposer.Proofs.ProjectTree.Reported
import ProjectComposer.Proofs.ProjectTree.Session
import ProjectComposer.Proofs.ProjectTree.Undocumented
import ProjectComposer.Proofs.RootFiles.EnvExample
import ProjectComposer.Proofs.RootFiles.PackageManifest
import ProjectComposer.Proofs.Table
import ProjectComposer.Proofs.Text.Segments
import ProjectComposer.Proofs.Text.Sorted
import ProjectComposer.Proofs.Text.Trimmed
import ProjectComposer.Proofs.Validation.Accepted
import ProjectComposer.Proofs.Validation.Configs
import ProjectComposer.Proofs.Validation.DependencyGraph
import ProjectComposer.Proofs.Validation.Links
import ProjectComposer.Proofs.Validation.Reported
import ProjectComposer.Proofs.Validation.Structure
import ProjectComposer.Proofs.Validation.Widened
import ProjectComposer.Proofs.Validation.Wiring
import ProjectComposer.Proofs.Wire.Declared
import ProjectComposer.Proofs.Wire.Follows
import ProjectComposer.Proofs.Wire.ReadBack
import ProjectComposer.Proofs.Wire.Records
import ProjectComposer.Service.Authority
import ProjectComposer.Service.Description
import ProjectComposer.Service.Endpoint
import ProjectComposer.Service.Response
import ProjectComposer.Service.Target
import ProjectComposer.Table
import ProjectComposer.Text.Blank
import ProjectComposer.Text.DecimalDigit
import ProjectComposer.Text.Lowercase
import ProjectComposer.Text.Printable
import ProjectComposer.Text.Quoted
import ProjectComposer.Text.Segments
import ProjectComposer.Text.Sorted
import ProjectComposer.Validation.Configs
import ProjectComposer.Validation.Dependencies
import ProjectComposer.Validation.Links
import ProjectComposer.Validation.Structure
import ProjectComposer.Wire.Checked
import ProjectComposer.Wire.Codec
import ProjectComposer.Wire.Issue
import ProjectComposer.Wire.Record
import ProjectComposer.Wire.Shape

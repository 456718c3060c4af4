import ManifestVariables.Binary64.Basic
import ManifestVariables.Binary64.Shortest
import ManifestVariables.CommandLine.Commands
import ManifestVariables.CommandLine.Grammar
import ManifestVariables.CommandLine.Help
import ManifestVariables.CommandLine.Invocation
import ManifestVariables.CommandLine.LogFilter
import ManifestVariables.CommandLine.Overview
import ManifestVariables.CommandLine.Report
import ManifestVariables.ConfigServer.Basic
import ManifestVariables.ConfigServer.Client
import ManifestVariables.ConfigServer.Versions
import ManifestVariables.Engine
import ManifestVariables.Engine.Connected
import ManifestVariables.Engine.World
import ManifestVariables.Event.Basic
import ManifestVariables.Event.Bus
import ManifestVariables.Event.Timestamp
import ManifestVariables.Generation.Basic
import ManifestVariables.Generation.LinkAddress
import ManifestVariables.Http.Base64
import ManifestVariables.Http.Host
import ManifestVariables.Http.Percent
import ManifestVariables.Http.Request
import ManifestVariables.Http.Status
import ManifestVariables.Http.Url
import ManifestVariables.Json.Basic
import ManifestVariables.Json.Parser
import ManifestVariables.Json.Printer
import ManifestVariables.Keyed
import ManifestVariables.Ledger.Basic
import ManifestVariables.Ledger.SetId
import ManifestVariables.Ledger.Store
import ManifestVariables.Machine.Basic
import ManifestVariables.Machine.Manifest
import ManifestVariables.Machine.Memory
import ManifestVariables.Main
import ManifestVariables.Name.Basic
import ManifestVariables.Name.Placeholder
import ManifestVariables.Program
import ManifestVariables.Proofs.Program.Transcript
import ManifestVariables.Proofs.Tree.Substitution
import ManifestVariables.Record
import ManifestVariables.Resolution.Basic
import ManifestVariables.Resolution.Interpolation
import ManifestVariables.Settings.Basic
import ManifestVariables.Settings.Discovery
import ManifestVariables.Settings.Environment
import ManifestVariables.Settings.EnvironmentFile
import ManifestVariables.Settings.Sample
import ManifestVariables.Settings.Validation
import ManifestVariables.Text
import ManifestVariables.Text.Blank
import ManifestVariables.Text.Quoted
import ManifestVariables.Transport.Connection
import ManifestVariables.Transport.Endpoint
import ManifestVariables.Transport.Layer
import ManifestVariables.Transport.Script
import ManifestVariables.Transport.Token
import ManifestVariables.Tree.Check
import ManifestVariables.Tree.Path
import ManifestVariables.Tree.Replace
import ManifestVariables.Tree.Site
import ManifestVariables.Variable.Basic
import ManifestVariables.Variable.Declaration
import ManifestVariables.Yaml.Cursor
import ManifestVariables.Yaml.Format
import ManifestVariables.Yaml.Layout
import ManifestVariables.Yaml.Node
import ManifestVariables.Yaml.Printer
import ManifestVariables.Yaml.Scalar.Block
import ManifestVariables.Yaml.Scalar.Meaning
import ManifestVariables.Yaml.Scalar.Plain
import ManifestVariables.Yaml.Scalar.Quoted
import ManifestVariables.Yaml.Token
import ManifestVariables.Proofs.Resolution.Settling
import ManifestVariables.Proofs.Resolution.Substitution
import ManifestVariables.Proofs.Engine.Surroundings
import ManifestVariables.Proofs.Engine.Actions
import ManifestVariables.Proofs.Interpolation.PinnedFetch
import ManifestVariables.Proofs.Interpolation.Stability
import ManifestVariables.Proofs.Program.Pool
import ManifestVariables.Proofs.Interpolation.Convergence
import ManifestVariables.Proofs.Ledger.Session
import ManifestVariables.Proofs.Ledger.Frozen
import ManifestVariables.Proofs.Ledger.Refinement
import ManifestVariables.Proofs.Ledger.OneWritable
import ManifestVariables.Proofs.Interpolation.Reproduction
import ManifestVariables.Proofs.Interpolation.FreshNames
import ManifestVariables.Proofs.Name.Absolute
import ManifestVariables.Proofs.Name.Placeholder
import ManifestVariables.Proofs.Resolution.Phases
import ManifestVariables.Proofs.Interpolation.Fetchers
import ManifestVariables.Proofs.Interpolation.Failures
import ManifestVariables.Proofs.Interpolation.AbsoluteNames
import ManifestVariables.Proofs.Interpolation.OfflineCheck
import ManifestVariables.Proofs.Engine.Effects
import ManifestVariables.Proofs.Interpolation.LinkedFetch
import ManifestVariables.Proofs.Interpolation.LinkBindings
import ManifestVariables.Proofs.Interpolation.LinkStability
import ManifestVariables.Proofs.ConfigServer.Generated
import ManifestVariables.Proofs.Generation.Account
import ManifestVariables.Proofs.Generation.Effects
import ManifestVariables.Proofs.Ledger.Previous
import ManifestVariables.Proofs.Generation.KeptVersion
import ManifestVariables.Proofs.Generation.Attempts
import ManifestVariables.Proofs.Program.Unheeded
import ManifestVariables.Proofs.Generation.AuditOutage
import ManifestVariables.Proofs.Name.Grammar
import ManifestVariables.Proofs.Name.Namespaces
import ManifestVariables.Proofs.Interpolation.Namespaces
import ManifestVariables.Proofs.Resolution.OneVariable
import ManifestVariables.Proofs.Generation.ReadBack
import ManifestVariables.Proofs.Transport.Account
import ManifestVariables.Proofs.Transport.Layers
import ManifestVariables.Proofs.Name.Spelling
import ManifestVariables.Proofs.Name.Scan
import ManifestVariables.Proofs.Ledger.Writers
import ManifestVariables.Proofs.Transport.Grants
import ManifestVariables.Proofs.Transport.TokenProtocol
import ManifestVariables.Proofs.Ledger.Precedents
import ManifestVariables.Proofs.Ledger.Interruptions
import ManifestVariables.Proofs.Interpolation.Footprint
import ManifestVariables.Proofs.Transport.RetryWords
import ManifestVariables.Proofs.Transport.RetryLaw
import ManifestVariables.Proofs.ConfigServer.Shapes
import ManifestVariables.Proofs.Transport.ClockEnd
import ManifestVariables.Proofs.Generation.PropertyAccount
import ManifestVariables.Proofs.Generation.PreparedProperty
import ManifestVariables.Proofs.Keyed
import ManifestVariables.Proofs.Generation.Parameters
import ManifestVariables.Proofs.Name.Splitting
import ManifestVariables.Proofs.Tree.Ignoring
import ManifestVariables.Proofs.Tree.Location
import ManifestVariables.Proofs.Http.Percent
import ManifestVariables.Proofs.Http.Paths
import ManifestVariables.Proofs.Transport.Targets
import ManifestVariables.Proofs.Json.Distinct
import ManifestVariables.Proofs.Interpolation.Changes
import ManifestVariables.Proofs.Generation.IgnoredKinds
import ManifestVariables.Proofs.Event.Streams
import ManifestVariables.Proofs.Tree.Traversal
import ManifestVariables.Proofs.Variable.Spellings
import ManifestVariables.Proofs.Tree.Replacement
import ManifestVariables.Proofs.Resolution.Parts
import ManifestVariables.Proofs.Interpolation.ErrorClasses

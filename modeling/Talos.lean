import Talos.Alerts.Lifecycle
import Talos.Appliance.Redaction
import Talos.CommandCenter.Approvals
import Talos.CommandCenter.FinishedJobs
import Talos.CommandCenter.LeaseExclusion
import Talos.CommandCenter.LeaseIds
import Talos.CommandCenter.LeasePromises
import Talos.CommandCenter.Leases
import Talos.CommandCenter.Lifecycle
import Talos.CommandCenter.Operations
import Talos.CommandCenter.Records
import Talos.CommandCenter.Service
import Talos.Convergence.Register
import Talos.Decision.Authorization
import Talos.Decision.Category
import Talos.Decision.EffectivePolicy
import Talos.Decision.Engine
import Talos.Decision.ForcedRequest
import Talos.Decision.Override
import Talos.Decision.Placement
import Talos.Display.Bounds
import Talos.Display.Compositor
import Talos.Display.CpuSafety
import Talos.Display.CpuViewport
import Talos.Display.Deferral
import Talos.Display.Moves
import Talos.Display.Record
import Talos.Display.RoundTrip
import Talos.Fallible.Program
import Talos.FeatureUpgrade.Handout
import Talos.FeatureUpgrade.Rows
import Talos.FeatureUpgrade.StartRun
import Talos.Interactive.Pool
import Talos.Interactive.Program
import Talos.JavaScript.Date
import Talos.JavaScript.Json
import Talos.JavaScript.Pattern
import Talos.JavaScript.Rounding
import Talos.JavaScript.Runtime
import Talos.Patch.ActionResult
import Talos.Patch.Convergence
import Talos.Patch.Immutable
import Talos.Patch.Progress
import Talos.Relational.Keyed
import Talos.Relational.Table
import Talos.Relay.Delivery
import Talos.Relay.Nonces
import Talos.Relay.Transport
import Talos.Remediation.Accepted
import Talos.Remediation.Consistency
import Talos.Remediation.Database
import Talos.Remediation.Dispatch
import Talos.Remediation.Frozen
import Talos.Remediation.Project
import Talos.Remediation.Replay
import Talos.Remediation.Report
import Talos.Runner.Echo
import Talos.Runner.ShellOutput
import Talos.Runner.Streaming
import Talos.Rust.Core
import Talos.Rust.Json
import Talos.Rust.Redaction
import Talos.Rust.Text
import Talos.SecureNotes.Ledger
import Talos.SecureNotes.Notes
import Talos.SecureNotes.Release
import Talos.SecureNotes.Rules
import Talos.Server.AgentIdentity
import Talos.Server.AgentSocket
import Talos.Server.Directory
import Talos.Server.DirectoryOwner
import Talos.Server.Expiry
import Talos.Server.Operations
import Talos.Server.Requests
import Talos.Server.Router
import Talos.Server.SessionIds
import Talos.Server.SessionMaps
import Talos.Server.SessionOwner
import Talos.Server.SessionRequests
import Talos.Server.SessionStart
import Talos.Server.SocketFootprint
import Talos.Server.StaleDisconnect
import Talos.Telemetry.Baseline
import Talos.Telemetry.Delivery
import Talos.Telemetry.Wildcard
import Talos.Tiles.Coalescing
import Talos.Tiles.HelperDecoder
import Talos.Tiles.MetalKernel
import Talos.Tiles.Packing
import Talos.Tiles.SolidRuns
import Talos.Tiles.Stream
import Talos.Tiles.WireChunks
import Talos.Transition.Run
import Talos.Worker.AccountOwnership
import Talos.Worker.NativeControl
import Talos.Worker.RebootBounds
import Talos.Worker.RebootNotice
import Talos.Worker.Snapshot
import Talos.Worker.UpdateAccount
import Talos.Worker.UpgradeGate
import Talos.Worker.UpgradeLaunch
import Talos.Worker.UpgradeReport
import Talos.Worker.UpgradeStart

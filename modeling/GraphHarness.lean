import GraphHarness.Traverse.Collect
import GraphHarness.Traverse.DepthFirst
import GraphHarness.Traverse.Orbit
import GraphHarness.Parse.Nom
import GraphHarness.Parse.Template
import GraphHarness.Parse.Regex
import GraphHarness.Parse.Replace
import GraphHarness.Serde.Json
import GraphHarness.Serde.Format
import GraphHarness.Serde.Fields
import GraphHarness.Trace.Past
import GraphHarness.Trace.Steps
import GraphHarness.Trace.Parties
import GraphHarness.Trace.Dialogue
import GraphHarness.Trace.Balance
import GraphHarness.Trace.Latest
import GraphHarness.Collections
import GraphHarness.Config.Types
import GraphHarness.Config.Resolver
import GraphHarness.Config.Context
import GraphHarness.Config.Grammar
import GraphHarness.Config.Validation
import GraphHarness.Config.Delimited
import GraphHarness.Config.SinglePass
import GraphHarness.Orchestration.Config
import GraphHarness.Config.Substitution
import GraphHarness.Config.Simultaneous
import GraphHarness.Config.Pipelines
import GraphHarness.Config.Parser
import GraphHarness.Config.Conversion
import GraphHarness.Harness.Dependencies
import GraphHarness.Harness.Order
import GraphHarness.Orchestration.Format
import GraphHarness.Harness.Protocol
import GraphHarness.Harness.Format
import GraphHarness.Harness.Start
import GraphHarness.Harness.StartDependencies
import GraphHarness.Harness.StartReferences
import GraphHarness.Harness.DaemonClient
import GraphHarness.Harness.StartReport
import GraphHarness.Harness.Stop
import GraphHarness.Harness.StopDependents
import GraphHarness.Harness.StopReport
import GraphHarness.Shell.Lexer
import GraphHarness.Shell.Loss
import GraphHarness.Shell.Command
import GraphHarness.Executor.Command
import GraphHarness.Executor.Layers
import GraphHarness.Executor.Quoting
import GraphHarness.Executor.Joined
import GraphHarness.Executor.Attacher
import GraphHarness.Executor.Hops
import GraphHarness.Executor.Composition
import GraphHarness.Executor.Environment
import GraphHarness.Executor.Stdin
import GraphHarness.Executor.Events
import GraphHarness.Executor.Output
import GraphHarness.Orchestration.Manager
import GraphHarness.Orchestration.Concurrency
import GraphHarness.Text
import GraphHarness.ServiceRegistry.Models
import GraphHarness.ServiceRegistry.Backend
import GraphHarness.ServiceRegistry.Serializer
import GraphHarness.ServiceRegistry.Registry
import GraphHarness.Trace.Simulation
import GraphHarness.ServiceRegistry.Refinement
import GraphHarness.Trace.Interleave
import GraphHarness.ServiceRegistry.Concurrency
import GraphHarness.ServiceRegistry.Registration
import GraphHarness.ServiceRegistry.Listing
import GraphHarness.ServiceRegistry.Transitions
import GraphHarness.ServiceRegistry.States
import GraphHarness.ServiceRegistry.Linearizability
import GraphHarness.ServiceRegistry.WebSocket
import GraphHarness.ServiceRegistry.Subscriptions
import GraphHarness.ServiceRegistry.Cleanup
import GraphHarness.ServiceRegistry.Server
import GraphHarness.ServiceRegistry.Delivery
import GraphHarness.ServiceRegistry.Client
import GraphHarness.ServiceRegistry.Messages
import GraphHarness.ServiceRegistry.Pending
import GraphHarness.ServiceRegistry.Responses
import GraphHarness.ServiceRegistry.Correlation
import GraphHarness.ServiceRegistry.Network.IpAllocator
import GraphHarness.ServiceRegistry.Network.Allocation
import GraphHarness.ServiceRegistry.Network.Reservation
import GraphHarness.ServiceRegistry.Network.FirstFit
import GraphHarness.ServiceRegistry.Network.Overflow
import GraphHarness.ServiceRegistry.Network.Manager
import GraphHarness.ServiceRegistry.Network.Mesh
import GraphHarness.ServiceRegistry.Network.Environment
import GraphHarness.Orchestration.Health
import GraphHarness.Orchestration.Executors
import GraphHarness.Orchestration.Lifecycle
import GraphHarness.Orchestration.Answers
import GraphHarness.Orchestration.Tracking
import GraphHarness.Orchestration.Failure
import GraphHarness.Orchestration.Status
import GraphHarness.Orchestration.Monitors
import GraphHarness.Orchestration.Thresholds
import GraphHarness.Orchestration.Alone
import GraphHarness.Orchestration.Calls
import GraphHarness.Orchestration.Forwarding
import GraphHarness.Orchestration.Docker
import GraphHarness.Orchestration.ContainerId
import GraphHarness.Orchestration.Adoption
import GraphHarness.GraphTestDaemon.Tasks
import GraphHarness.GraphTestDaemon.Bookkeeping
import GraphHarness.GraphTestDaemon.Completion
import GraphHarness.HarnessCore.Daemon
import GraphHarness.Harness.Handlers
import GraphHarness.Harness.Status
import GraphHarness.Harness.Session
import GraphHarness.Harness.StartSession
import GraphHarness.Harness.StartSessionReport
import GraphHarness.Harness.StopSession
import GraphHarness.Harness.Clients
import GraphHarness.Harness.StopSessionReport
import GraphHarness.Harness.Validate
import GraphHarness.Harness.Connections
import GraphHarness.Harness.ValidateStart
import GraphHarness.Orchestration.Accounts
import GraphHarness.Orchestration.Undisturbed
import GraphHarness.Serde.Values
import GraphHarness.ServiceRegistry.Format
import GraphHarness.ServiceRegistry.ClientMap
import GraphHarness.ServiceRegistry.Requests
import GraphHarness.ServiceRegistry.Answers
import GraphHarness.ServiceRegistry.Documents

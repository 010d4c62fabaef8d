import AlternatorDriver.Foundation.Machine
import AlternatorDriver.Foundation.ClaimLedger
import AlternatorDriver.Foundation.SortDedup
import AlternatorDriver.DiscoveryTasks
import AlternatorDriver.RoutingScope
import AlternatorDriver.LiveNodes.NodeView
import AlternatorDriver.KeyRouting.Resolver
import AlternatorDriver.KeyRouting.Exclusive
import AlternatorDriver.KeyRouting.Cooldown
import AlternatorDriver.LiveNodes.Publication
import AlternatorDriver.Foundation.Text
import AlternatorDriver.Headers.OptimizeHeaders
import AlternatorDriver.Headers.Transmit
import AlternatorDriver.Foundation.Ipv6Text
import AlternatorDriver.Url
import AlternatorDriver.Foundation.Program
import AlternatorDriver.LiveNodes.Convergence
import AlternatorDriver.KeyRouting.Classifier
import AlternatorDriver.KeyRouting.DeterministicRng
import AlternatorDriver.Routing.QueryPlan
import AlternatorDriver.Foundation.Tally
import AlternatorDriver.Routing.AffinityPlan
import AlternatorDriver.Routing.Agreement
import AlternatorDriver.LiveNodes.Construction
import AlternatorDriver.Routing.Rewrite
import AlternatorDriver.LiveNodes.Membership
import AlternatorDriver.Routing.Attempts
import AlternatorDriver.Routing.EveryAttempt
import AlternatorDriver.Foundation.Notify
import AlternatorDriver.Foundation.Ownership
import AlternatorDriver.Routing.CapturedOrder
import AlternatorDriver.Routing.Rotation
import AlternatorDriver.LiveNodes.ClusterPass
import AlternatorDriver.LiveNodes.PartialUnion
import AlternatorDriver.LiveNodes.Fallback
import AlternatorDriver.Routing.Repeats
import AlternatorDriver.Compression.Request
import AlternatorDriver.Compression.Response
import AlternatorDriver.LiveNodes.Manager
import AlternatorDriver.LiveNodes.Discovery
import AlternatorDriver.LiveNodes.Changes
import AlternatorDriver.LiveNodes.TaskChanges
import AlternatorDriver.LiveNodes.OneOwner
import AlternatorDriver.LiveNodes.CallMoves
import AlternatorDriver.LiveNodes.Rechecks
import AlternatorDriver.LiveNodes.Replacement
import AlternatorDriver.Foundation.FirstOccurrences
import AlternatorDriver.Routing.Balance
import AlternatorDriver.ScopeChains
import AlternatorDriver.Headers.SignedHeaders
import AlternatorDriver.Compression.ContentEncoding
import AlternatorDriver.LiveNodes.Endpoint
import AlternatorDriver.LiveNodes.Handoffs
import AlternatorDriver.LiveNodes.IdleWakeups
import AlternatorDriver.LiveNodes.Closure
import AlternatorDriver.Foundation.Component
import AlternatorDriver.KeyRouting.Closure
import AlternatorDriver.Shutdown
import AlternatorDriver.Foundation.Simulation
import AlternatorDriver.LiveNodes.Provenance
import AlternatorDriver.LiveNodes.PublicationOrder
import AlternatorDriver.Operation.Lifecycle
import AlternatorDriver.Operation.Overrides
import AlternatorDriver.Operation.SignedAttempts
import AlternatorDriver.Operation.Negotiation
import AlternatorDriver.Foundation.Progress
import AlternatorDriver.LiveNodes.Returning
import AlternatorDriver.LiveNodes.Endings
import AlternatorDriver.KeyRouting.Endings
import AlternatorDriver.ShutdownReturns
import AlternatorDriver.KeyRouting.Retries
import AlternatorDriver.Client.Configuration
import AlternatorDriver.Client.Construction
import AlternatorDriver.Client.Transport
import AlternatorDriver.Client.Acceptance
import AlternatorDriver.Client.Requests
import AlternatorDriver.Client.KeyAffinity

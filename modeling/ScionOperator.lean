import ScionOperator.Advertisement
import ScionOperator.Agent
import ScionOperator.Agreement
import ScionOperator.Api
import ScionOperator.Apply
import ScionOperator.AtomicFile
import ScionOperator.Availability
import ScionOperator.Bootstrap
import ScionOperator.CacheHistory
import ScionOperator.Certificate
import ScionOperator.Cluster
import ScionOperator.Config
import ScionOperator.CreateOrUpdate
import ScionOperator.Duration
import ScionOperator.Dyadic
import ScionOperator.Enforcement
import ScionOperator.Errgroup
import ScionOperator.Finalizer
import ScionOperator.FirstError
import ScionOperator.GoMap
import ScionOperator.Halving
import ScionOperator.Injection
import ScionOperator.Json
import ScionOperator.JsonDecode
import ScionOperator.JsonRoundTrip
import ScionOperator.Lifecycle
import ScionOperator.MetricsAuth
import ScionOperator.MetricsTLS
import ScionOperator.MinimalCover
import ScionOperator.Netip
import ScionOperator.NetipText
import ScionOperator.NodeEndpoint
import ScionOperator.NodeIPAdvertisement
import ScionOperator.Operator
import ScionOperator.Owners
import ScionOperator.Pipeline
import ScionOperator.Platform
import ScionOperator.PodNetworks
import ScionOperator.Policy
import ScionOperator.PolicyFiles
import ScionOperator.PutBody
import ScionOperator.RefreshLoop
import ScionOperator.RegistrarServer
import ScionOperator.RegistrarSync
import ScionOperator.Registration
import ScionOperator.Render
import ScionOperator.Result
import ScionOperator.RoutingPolicy
import ScionOperator.Shutdown
import ScionOperator.Startup
import ScionOperator.StatusHistory
import ScionOperator.StatusUpdate
import ScionOperator.Text
import ScionOperator.Topology
import ScionOperator.TopologyNotice
import ScionOperator.TopologyPatch
import ScionOperator.Transition
import ScionOperator.TrustCache
import ScionOperator.Workqueue

import StarFabric.Adapter.Agent
import StarFabric.Adapter.Frr
import StarFabric.Adapter.ReadBack
import StarFabric.Api.Grpc
import StarFabric.App.Fencing
import StarFabric.App.IntentOrder
import StarFabric.App.IntentsFile
import StarFabric.App.LostUpdates
import StarFabric.App.Takeover
import StarFabric.Evpn.Decoding
import StarFabric.Evpn.Isolation
import StarFabric.Evpn.Mobility
import StarFabric.Evpn.RoundTrip
import StarFabric.Evpn.SequenceNumbers
import StarFabric.Gribi.MakeBeforeBreak
import StarFabric.Gribi.RoundTrip
import StarFabric.Inventory
import StarFabric.Leadership.Election
import StarFabric.Leadership.LeaseSafety
import StarFabric.Live.Addressing
import StarFabric.Live.Ping
import StarFabric.Onboard.Boot
import StarFabric.Onboard.Concurrent
import StarFabric.Onboard.Crash
import StarFabric.Onboard.Ownership
import StarFabric.Onboard.Recovery
import StarFabric.Onboard.Signature
import StarFabric.Onboard.Transition
import StarFabric.Planner.Agreement
import StarFabric.Planner.Forwarding
import StarFabric.Planner.Limits
import StarFabric.Planner.Panics
import StarFabric.Planner.Reorder
import StarFabric.Policy.Optimal
import StarFabric.Predictive.Forecast
import StarFabric.Reconcile.Comparison
import StarFabric.Reconcile.Outage
import StarFabric.Reconcile.Rollback
import StarFabric.Reconcile.Status
import StarFabric.Topology.Batch
import StarFabric.Topology.Commute
import StarFabric.Topology.Durability
import StarFabric.Topology.Order
import StarFabric.Verification.Exactness
import StarFabric.Workloads.FailClosed

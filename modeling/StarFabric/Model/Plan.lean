import StarFabric.Model.Topology

/-!
# Intents, route plans and reconciliation status

The rest of the data model of `internal/model/model.go`: intents, paths, plans, device states and
the status of the reconciler. `sort.Slice` leaves the order of routes with equal keys open; in
`sortRoutes` they keep their order.
-/

namespace StarFabric

open Go List

/-- What an operator asks for: traffic from `source` to a prefix behind
`destination` or behind one of several gateways. -/
structure RouteIntent where
  id : String
  source : String
  destination : String := ""
  gatewayCandidates : List String := []
  destinationPrefix : String
  policy : String := ""
  maxLatencyUS : Int64 := 0
  minCapacityBPS : Int64 := 0
  demandBPS : Int64 := 0
  maxLossPPM : Int64 := 0
  requiredReliability : Int64 := 0
  redundancy : ℤ := 0
  trafficClass : String := ""
  priority : ℤ := 0
  labels : List (String × String) := []
  deriving DecidableEq, Repr, Inhabited

def RouteIntent.validate (i : RouteIntent) : Except String Unit :=
  if i.id = "" ∨ i.source = "" ∨ i.destinationPrefix = "" then
    .error "intent id, source, and destination_prefix are required"
  else if i.destination = "" ∧ i.gatewayCandidates = [] then
    .error "destination or gateway_candidates is required"
  else if i.redundancy < 0 ∨ 2 < i.redundancy then
    .error "redundancy must be between zero and two"
  else if i.minCapacityBPS < 0 ∨ i.demandBPS < 0 then
    .error "capacity constraints cannot be negative"
  else .ok ()

/-- What `RouteIntent.validate` accepts. -/
structure RouteIntent.Valid (i : RouteIntent) : Prop where
  text : i.id ≠ "" ∧ i.source ≠ "" ∧ i.destinationPrefix ≠ ""
  target : i.destination ≠ "" ∨ i.gatewayCandidates ≠ []
  redundancy : 0 ≤ i.redundancy ∧ i.redundancy ≤ 2
  capacity : 0 ≤ i.minCapacityBPS ∧ 0 ≤ i.demandBPS

theorem RouteIntent.validate_eq_ok_iff {i : RouteIntent} : i.validate = .ok () ↔ i.Valid := by
  unfold RouteIntent.validate
  constructor
  · intro h
    split_ifs at h with htext htarget hredundancy hcapacity
    simp only [not_or, not_and_or, not_lt] at htext htarget hredundancy hcapacity
    exact ⟨htext, htarget, hredundancy, hcapacity⟩
  · rintro ⟨htext, htarget, hredundancy, hcapacity⟩
    rw [if_neg (by tauto), if_neg (by tauto), if_neg (by omega),
      if_neg (by simpa only [not_or, not_lt] using hcapacity)]

structure Path where
  nodes : List String
  links : List String := []
  latencyUS : Int64 := 0
  capacityBPS : Int64 := 0
  lossPPM : Int64 := 0
  cost : Int64 := 0
  riskGroups : List String := []
  deriving DecidableEq, Repr, Inhabited

structure RouteOperation where
  device : String
  routePrefix : String
  nextHop : String
  nextHopNode : String
  metric : ℤ := 0
  intentID : String
  pathRole : String
  deriving DecidableEq, Repr, Inhabited

def routeLess (a b : RouteOperation) : Bool :=
  if a.device ≠ b.device then a.device < b.device
  else if a.routePrefix ≠ b.routePrefix then a.routePrefix < b.routePrefix
  else if a.metric ≠ b.metric then a.metric < b.metric
  else a.nextHopNode < b.nextHopNode

def sortRoutes (routes : List RouteOperation) : List RouteOperation :=
  routes.insertionSort fun a b => routeLess b a = false

theorem sortRoutes_perm (routes : List RouteOperation) : (sortRoutes routes).Perm routes :=
  perm_insertionSort _ routes

@[simp] theorem mem_sortRoutes {route : RouteOperation} {routes : List RouteOperation} :
    route ∈ sortRoutes routes ↔ route ∈ routes :=
  (sortRoutes_perm routes).mem_iff

structure PlanMetadata where
  selectedGateways : Map String := ∅
  capacityReservationsBPS : Map Int64 := ∅
  deriving DecidableEq

structure RoutePlan where
  id : String := ""
  topologyVersion : UInt64
  createdAt : Time := 0
  expiresAt : Time
  policy : String := ""
  intents : List RouteIntent := []
  paths : Map (List Path) := ∅
  routes : List RouteOperation := []
  preconditions : List String := []
  rollbackPlanID : String := ""
  metadata : PlanMetadata := {}
  deriving DecidableEq

def RoutePlan.zero : RoutePlan := { topologyVersion := 0, expiresAt := 0 }

def RoutePlan.share (plan : RoutePlan) (name : String) : List RouteOperation :=
  plan.routes.filter fun route => route.device = name

theorem RoutePlan.share_eq_nil_iff {plan : RoutePlan} {name : String} :
    plan.share name = [] ↔ name ∉ plan.routes.map RouteOperation.device := by
  unfold RoutePlan.share
  simp only [filter_eq_nil_iff, decide_eq_true_eq, mem_map, not_exists, not_and]

def RoutePlan.forDevice (plan : RoutePlan) (name : String) : RoutePlan :=
  { plan with routes := plan.share name }

structure DeviceState where
  device : String
  healthy : Bool
  appliedPlanID : String := ""
  routes : List RouteOperation
  deriving DecidableEq, Repr, Inhabited

inductive ReconcilePhase where
  | idle
  | validating
  | preparing
  | committing
  | verifying
  | committed
  | rolledBack
  | failed
  deriving DecidableEq, Repr, Inhabited

structure ReconcileStatus where
  phase : ReconcilePhase := .idle
  planID : String := ""
  topologyVersion : UInt64 := 0
  startedAt : Time := 0
  finishedAt : Time := 0
  preparedDevices : List String := []
  committedDevices : List String := []
  deferredDevices : List String := []
  failedDevices : List String := []
  error : String := ""
  rollbackReason : String := ""
  deriving DecidableEq, Repr, Inhabited

end StarFabric

import StarFabric.Policy.Registry
import StarFabric.Lib.Fold

/-!
# The planner

`internal/planner/planner.go`. `build` plans the intents one after the other, by priority, on a copy
of the topology from which the demand of every primary path is taken off. A `Round` records what one
successful round chose, and every later result about a plan is read off the run of rounds
(`build_run`). The digest in a plan's id is a parameter.
-/

namespace StarFabric

open Go Policy ExceptFold List

structure Planner where
  planTTL : Duration
  maxTelemetryAge : Duration
  nodeDisjoint : Bool
  policies : Registry

namespace Planner

structure Config where
  planTTL : Duration := 0
  maxTelemetryAge : Duration := 0
  nodeDisjoint : Bool := false
  policies : Option Registry := none

def new (config : Config) : Planner where
  planTTL := if config.planTTL ≤ 0 then 30 * second else config.planTTL
  maxTelemetryAge := config.maxTelemetryAge
  nodeDisjoint := config.nodeDisjoint
  policies := config.policies.getD (Registry.new [])

def check {α : Type} (label : String) (x : Except String α) : Except Failure α :=
  x.mapError fun e => .error (label ++ e)

/-! ### Choosing the destination -/

structure Selection where
  selected : Path := { nodes := [] }
  selectedDestination : String := ""
  failures : List String := []

def candidates (intent : RouteIntent) : List String :=
  sortStrings (intent.gatewayCandidates ++
    if intent.destination ≠ "" then [intent.destination] else [])

def consider (p : Planner) (clock : Time) (snapshot : TopologySnapshot) (intent : RouteIntent)
    (now : Time) (s : Selection) (destination : String) : Selection :=
  match p.policies.compute clock intent.policy snapshot
      { intent with destination := destination }
      { at_ := now, maxTelemetryAge := p.maxTelemetryAge } with
  | .error e => { s with failures := s.failures ++ [destination ++ ": " ++ e] }
  | .ok path =>
    -- the empty name stands for no selection yet; a tie goes to the smaller name
    if s.selectedDestination = "" ∨ path.cost < s.selected.cost ∨
        (path.cost = s.selected.cost ∧ destination < s.selectedDestination) then
      { s with selected := path, selectedDestination := destination }
    else s

def selectDestination (p : Planner) (clock : Time) (snapshot : TopologySnapshot)
    (intent : RouteIntent) (now : Time) : Except String (RouteIntent × Path) :=
  if candidates intent = [] then .error "no destination candidate"
  else
    let s := (candidates intent).foldl (consider p clock snapshot intent now) {}
    if s.selectedDestination = "" then
      .error ("no reachable destination: " ++ joinErrors s.failures)
    else .ok ({ intent with destination := s.selectedDestination }, s.selected)

/-! ### Backups -/

/-- The loop over the backups: `count` more of them, the next one with number `index`. -/
def backups (p : Planner) (engine : PathPolicy) (clock : Time) (snapshot : TopologySnapshot)
    (intent : RouteIntent) : ℕ → ℕ → Path → Options → Except Failure (List Path)
  | 0, _, _, _ => .ok []
  | count + 1, index, previous, options => do
    let label := "intent " ++ quote intent.id ++ " backup " ++ toString (index + 1) ++ ": "
    -- the exclusions pile up: each backup avoids the primary path and the backups before it
    let (backup, options) ← (disjointWithPolicy engine clock snapshot intent previous
      p.nodeDisjoint options).mapError (Failure.wrap label)
    let rest ← backups p engine clock snapshot intent count (index + 1) backup options
    return backup :: rest

def computeBackups (p : Planner) (clock : Time) (snapshot : TopologySnapshot)
    (intent : RouteIntent) (primary : Path) (now : Time) : Except Failure (List Path) :=
  if 0 < intent.redundancy then
    match p.policies.policy intent.policy with
    | none => .error (.error ("intent " ++ quote intent.id ++ ": unknown path policy " ++
        quote intent.policy))
    | some engine => backups p engine clock snapshot intent intent.redundancy.toNat 0 primary
        { at_ := now, maxTelemetryAge := p.maxTelemetryAge }
  else .ok []

/-! ### Reservations, expiry and routes -/

def reserved (reservations : Map Int64) (id : String) : Int64 := (reservations.lookup id).getD 0

def reserveLink (demand : Int64) (s : List Link × Map Int64) (linkID : String) :
    List Link × Map Int64 :=
  match s.1.findIdx? fun link => link.id = linkID with
  | none => s
  | some i =>
    (s.1.modify i fun link => { link with capacityBPS := link.capacityBPS - demand },
      s.2.insert linkID (reserved s.2 linkID + demand))

def reserve (intent : RouteIntent) (primary : Path) (s : List Link × Map Int64) :
    List Link × Map Int64 :=
  if 0 < intent.demandBPS then primary.links.foldl (reserveLink intent.demandBPS) s else s

def lower (expiresAt end_ : Time) : Time :=
  if !end_.isZero && end_ < expiresAt then end_ else expiresAt

def lowerLink (links : Map Link) (expiresAt : Time) (linkID : String) : Time :=
  -- a link that is not in the map is the zero link, which has no ends
  let link := (links.lookup linkID).getD default
  lower (lower expiresAt link.validUntil) link.availabilityEnd

def lowerPaths (links : Map Link) (expiresAt : Time) (paths : List Path) : Time :=
  (paths.flatMap Path.links).foldl (lowerLink links) expiresAt

def roleMetric (intent : RouteIntent) (primary : Path) (index : ℕ) (path : Path) : String × ℤ :=
  if index = 0 then ("primary", 100)
  else if intent.policy = "ecmp" ∧ path.cost = primary.cost then ("ecmp", 100)
  else ("backup", 200 + index)

def hopRoute (nodes : Map Node) (intent : RouteIntent) (role : String × ℤ)
    (hop : String × String) : Except Failure RouteOperation :=
  match nodes.lookup hop.2 with
  | none => .error (.error ("unknown next-hop node " ++ quote hop.2))
  | some nextHop =>
    -- the source of a hop is not checked: a missing node is the zero node
    match ((nodes.lookup hop.1).getD default).nextHopAddress nextHop with
    | .error e => .error (.error e)
    | .ok address => .ok
        { device := hop.1, routePrefix := intent.destinationPrefix, nextHop := address
          nextHopNode := nextHop.id, metric := role.2, intentID := intent.id
          pathRole := role.1 }

def pathRoutes (nodes : Map Node) (intent : RouteIntent) (primary : Path)
    (entry : Path × ℕ) : Except Failure (List RouteOperation) :=
  (hops entry.1).mapM (hopRoute nodes intent (roleMetric intent primary entry.2 entry.1))

def intentRoutes (nodes : Map Node) (intent : RouteIntent) (primary : Path)
    (paths : List Path) : Except Failure (List RouteOperation) := do
  let routes ← paths.zipIdx.mapM (pathRoutes nodes intent primary)
  return routes.flatten

/-! ### The build -/

structure Draft where
  plan : RoutePlan
  residual : TopologySnapshot
  reservations : Map Int64

def Draft.commit (snapshot : TopologySnapshot) (draft : Draft) (intent : RouteIntent)
    (primary : Path) (backups : List Path) (routes : List RouteOperation) : Draft :=
  let reserved := reserve intent primary (draft.residual.links, draft.reservations)
  { plan := { draft.plan with
      intents := draft.plan.intents ++ [intent]
      paths := draft.plan.paths.insert intent.id (primary :: backups)
      expiresAt := lowerPaths snapshot.linkMap draft.plan.expiresAt (primary :: backups)
      routes := draft.plan.routes ++ routes
      metadata := if intent.gatewayCandidates = [] then draft.plan.metadata
        else { draft.plan.metadata with
          selectedGateways :=
            draft.plan.metadata.selectedGateways.insert intent.id intent.destination } }
    residual := { draft.residual with links := reserved.1 }
    reservations := reserved.2 }

def planIntent (p : Planner) (clock : Time) (snapshot : TopologySnapshot) (now : Time)
    (draft : Draft) (intent : RouteIntent) : Except Failure Draft := do
  let label := "intent " ++ quote intent.id
  check (label ++ ": ") intent.validate
  let _ ← check (label ++ " destination prefix: ") (parsePrefix intent.destinationPrefix)
  -- the paths are searched on what earlier rounds left, the routes are made on the snapshot
  let (chosen, primary) ← check (label ++ ": ")
    (selectDestination p clock draft.residual intent now)
  let backups ← computeBackups p clock draft.residual chosen primary now
  let routes ← intentRoutes snapshot.nodeMap chosen primary (primary :: backups)
  return draft.commit snapshot chosen primary backups routes

def intentLess (a b : RouteIntent) : Bool :=
  if a.priority ≠ b.priority then b.priority < a.priority else a.id < b.id

/-- `sort.SliceStable` on a copy of the intents. -/
def orderIntents (intents : List RouteIntent) : List RouteIntent :=
  intents.insertionSort fun a b => intentLess b a = false

def startDraft (p : Planner) (snapshot : TopologySnapshot) (now : Time) : Draft where
  plan :=
    { topologyVersion := snapshot.version
      createdAt := now
      expiresAt := now + p.planTTL
      policy := "per-intent"
      preconditions :=
        ["topology-version-match", "next-hop-reachable", "plan-not-expired", "loop-free"] }
  residual := snapshot
  reservations := ∅

structure Payload where
  topologyVersion : UInt64
  intents : List RouteIntent
  paths : Map (List Path)
  routes : List RouteOperation

def planID (digest : Payload → String) (plan : RoutePlan) : String :=
  "rp-" ++ digest ⟨plan.topologyVersion, plan.intents, plan.paths, plan.routes⟩

def Draft.finish (snapshot : TopologySnapshot) (draft : Draft) : RoutePlan :=
  { draft.plan with
    metadata := { draft.plan.metadata with capacityReservationsBPS := draft.reservations }
    routes := sortRoutes draft.plan.routes
    expiresAt := lower draft.plan.expiresAt snapshot.validUntil }

def buildTime (clock now : Time) : Time := if now.isZero then clock else now

def build (digest : Payload → String) (p : Planner) (clock : Time) (snapshot : TopologySnapshot)
    (intents : List RouteIntent) (now : Time) : Except Failure RoutePlan := do
  check "" snapshot.validate
  let now := buildTime clock now
  if !snapshot.validUntil.isZero && !(now < snapshot.validUntil) then
    .error (.error "topology snapshot has expired")
  else
    let draft ← (orderIntents intents).foldlM (planIntent p clock snapshot now)
      (startDraft p snapshot now)
    let plan := draft.finish snapshot
    -- a window may end before the plan could be used
    if !(now < plan.expiresAt) then
      .error (.error "computed route has no remaining contact-window lifetime")
    else .ok { plan with id := planID digest plan }

/-! ### Rounds and runs -/

structure Round where
  before : Draft
  input : RouteIntent
  intent : RouteIntent
  primary : Path
  backups : List Path
  routes : List RouteOperation

namespace Round

def paths (r : Round) : List Path := r.primary :: r.backups

def after (snapshot : TopologySnapshot) (r : Round) : Draft :=
  r.before.commit snapshot r.intent r.primary r.backups r.routes

end Round

structure Round.Succeeds (p : Planner) (clock : Time) (snapshot : TopologySnapshot) (now : Time)
    (r : Round) : Prop where
  valid : r.input.Valid
  parses : ∃ parsed, parsePrefix r.input.destinationPrefix = .ok parsed
  selects : selectDestination p clock r.before.residual r.input now = .ok (r.intent, r.primary)
  backs : computeBackups p clock r.before.residual r.intent r.primary now = .ok r.backups
  routes_ok : intentRoutes snapshot.nodeMap r.intent r.primary r.paths = .ok r.routes

def Run (p : Planner) (clock : Time) (snapshot : TopologySnapshot) (now : Time) :
    Draft → List Round → Draft → Prop
  | draft, [], draft' => draft = draft'
  | draft, r :: rounds, draft' => r.before = draft ∧ r.Succeeds p clock snapshot now ∧
      Run p clock snapshot now (r.after snapshot) rounds draft'

section Run

variable {p : Planner} {clock now : Time} {snapshot : TopologySnapshot} {draft draft' : Draft}

theorem planIntent_eq_ok {input : RouteIntent}
    (h : planIntent p clock snapshot now draft input = .ok draft') :
    ∃ r : Round, r.before = draft ∧ r.input = input ∧ r.Succeeds p clock snapshot now ∧
      r.after snapshot = draft' := by
  obtain ⟨⟨⟩, hvalid, h⟩ := bind_eq_ok.mp h
  obtain ⟨parsed, hparsed, h⟩ := bind_eq_ok.mp h
  obtain ⟨⟨chosen, primary⟩, hselect, h⟩ := bind_eq_ok.mp h
  obtain ⟨backups, hbackups, h⟩ := bind_eq_ok.mp h
  obtain ⟨routes, hroutes, h⟩ := bind_eq_ok.mp h
  rw [check, mapError_eq_ok] at hvalid hparsed hselect
  exact ⟨⟨draft, input, chosen, primary, backups, routes⟩, rfl, rfl,
    ⟨RouteIntent.validate_eq_ok_iff.mp hvalid, ⟨parsed, hparsed⟩, hselect, hbackups, hroutes⟩,
    Except.ok.inj h⟩

theorem foldlM_planIntent {intents : List RouteIntent}
    (h : intents.foldlM (planIntent p clock snapshot now) draft = .ok draft') :
    ∃ rounds, Run p clock snapshot now draft rounds draft' ∧ rounds.map Round.input = intents := by
  induction intents generalizing draft with
  | nil => exact ⟨[], Except.ok.inj h, rfl⟩
  | cons input intents ih =>
    obtain ⟨middle, hround, h⟩ := foldlM_ok_cons.mp h
    obtain ⟨r, hbefore, rfl, hr, rfl⟩ := planIntent_eq_ok hround
    obtain ⟨rounds, hrun, hinputs⟩ := ih h
    exact ⟨r :: rounds, ⟨hbefore, hr, hrun⟩, by rw [map_cons, hinputs]⟩

theorem run_append {rounds₁ rounds₂ : List Round} :
    Run p clock snapshot now draft (rounds₁ ++ rounds₂) draft' ↔
      ∃ middle, Run p clock snapshot now draft rounds₁ middle ∧
        Run p clock snapshot now middle rounds₂ draft' := by
  induction rounds₁ generalizing draft with
  | nil => exact ⟨fun h => ⟨draft, rfl, h⟩, fun ⟨_, h, h'⟩ => h ▸ h'⟩
  | cons r rounds ih =>
    constructor
    · rintro ⟨hb, hr, h⟩
      obtain ⟨middle, h₁, h₂⟩ := ih.mp h
      exact ⟨middle, ⟨hb, hr, h₁⟩, h₂⟩
    · rintro ⟨middle, ⟨hb, hr, h₁⟩, h₂⟩
      exact ⟨hb, hr, ih.mpr ⟨middle, h₁, h₂⟩⟩

theorem Run.invariant {P : Draft → Prop} {rounds : List Round}
    (hstep : ∀ r : Round, r.Succeeds p clock snapshot now → P r.before → P (r.after snapshot))
    (hdraft : P draft) (h : Run p clock snapshot now draft rounds draft') :
    (∀ r ∈ rounds, P r.before ∧ r.Succeeds p clock snapshot now) ∧ P draft' := by
  induction rounds generalizing draft with
  | nil => exact ⟨fun r hr => absurd hr not_mem_nil, h ▸ hdraft⟩
  | cons r rounds ih =>
    obtain ⟨rfl, hr, h⟩ := h
    obtain ⟨hall, hend⟩ := ih (hstep r hr hdraft) h
    exact ⟨forall_mem_cons.mpr ⟨⟨hdraft, hr⟩, hall⟩, hend⟩

end Run

variable {digest : Payload → String} {p : Planner} {snapshot : TopologySnapshot}
  {intents : List RouteIntent} {plan : RoutePlan}

/-- **A successful build.** The snapshot is valid and has not expired, the loop comes to its end, and
the plan has time left. -/
theorem build_eq_ok_iff {clock now : Time} :
    build digest p clock snapshot intents now = .ok plan ↔
      snapshot.validate = .ok () ∧
      (snapshot.validUntil = 0 ∨ buildTime clock now < snapshot.validUntil) ∧
      ∃ draft, (orderIntents intents).foldlM
          (planIntent p clock snapshot (buildTime clock now))
          (startDraft p snapshot (buildTime clock now)) = .ok draft ∧
        buildTime clock now < (draft.finish snapshot).expiresAt ∧
        plan = { draft.finish snapshot with id := planID digest (draft.finish snapshot) } := by
  have halive : (!snapshot.validUntil.isZero && !(buildTime clock now < snapshot.validUntil)) = true ↔
      ¬ (snapshot.validUntil = 0 ∨ buildTime clock now < snapshot.validUntil) := by
    simp [Time.isZero]
  constructor
  · intro h
    obtain ⟨⟨⟩, hvalid, h⟩ := bind_eq_ok.mp h
    rw [check, mapError_eq_ok] at hvalid
    dsimp only at h
    split_ifs at h with hexpired
    obtain ⟨draft, hloop, h⟩ := bind_eq_ok.mp h
    split_ifs at h with hlate
    exact ⟨hvalid, not_not.mp (mt halive.mpr hexpired), draft, hloop, by simpa using hlate,
      (Except.ok.inj h).symm⟩
  · rintro ⟨hvalid, htime, draft, hloop, hlate, rfl⟩
    refine bind_eq_ok.mpr ⟨(), ?_, ?_⟩
    · rw [check, mapError_eq_ok]
      exact hvalid
    · dsimp only
      rw [if_neg (mt halive.mp (not_not.mpr htime))]
      refine bind_eq_ok.mpr ⟨draft, hloop, ?_⟩
      rw [if_neg (by simpa using hlate)]

structure Built (digest : Payload → String) (p : Planner) (clock : Time)
    (snapshot : TopologySnapshot) (intents : List RouteIntent) (now : Time) (rounds : List Round)
    (draft : Draft) (plan : RoutePlan) : Prop where
  valid : snapshot.Valid
  clock_eq : now = 0 → clock = 0
  run : Run p clock snapshot now (startDraft p snapshot now) rounds draft
  inputs : rounds.map Round.input = orderIntents intents
  alive : now < plan.expiresAt
  plan_eq : plan = { draft.finish snapshot with id := planID digest (draft.finish snapshot) }

theorem clock_eq_zero {clock now : Time} (h : buildTime clock now = 0) : clock = 0 := by
  unfold buildTime Time.isZero at h
  split_ifs at h with hnow
  · exact h
  · exact absurd h (by simpa using hnow)

theorem build_run {clock now : Time} (h : build digest p clock snapshot intents now = .ok plan) :
    ∃ rounds draft,
      Built digest p clock snapshot intents (buildTime clock now) rounds draft plan := by
  obtain ⟨hvalid, -, draft, hloop, halive, rfl⟩ := build_eq_ok_iff.mp h
  obtain ⟨rounds, hrun, hinputs⟩ := foldlM_planIntent hloop
  exact ⟨rounds, draft, TopologySnapshot.validate_eq_ok_iff.mp hvalid, clock_eq_zero, hrun,
    hinputs, halive, rfl⟩

end Planner
end StarFabric

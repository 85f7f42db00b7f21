import StarFabric.Planner.Build
import StarFabric.Validation

/-!
# Forecasts from contact windows

`internal/predictive/engine.go`. `schedule` cuts the horizon at the starts and ends of the contact
windows, computes the topology at each of these instants (`snapshotAt`) and plans against it.
Nothing is sent to a device. The layout of an instant in an error text is a parameter of the engine.
-/

namespace StarFabric.Predictive

open Go Policy

/-- `ContactWindow`: a link that exists from `start` to `end_`. -/
structure ContactWindow where
  link : Link
  start : Time
  end_ : Time
  deriving DecidableEq, Repr

def ContactWindow.validate (w : ContactWindow) : Except String Unit :=
  if w.link.id = "" ∨ w.link.source = "" ∨ w.link.target = "" then
    .error "contact link id, source, and target are required"
  else if w.start.isZero ∨ ¬ w.start < w.end_ then
    .error "contact end must be after a non-zero start"
  else .ok ()

def ContactWindow.covers (w : ContactWindow) (at_ : Time) : Bool :=
  !(at_ < w.start) && at_ < w.end_

structure Activation where
  topologyAt : Time
  activateAt : Time
  topology : TopologySnapshot
  plan : RoutePlan
  shadowValidated : Bool
  changedPrefixes : List String := []
  deriving DecidableEq

/-- `Engine`, with the digest of a plan's id and the layout of an instant. -/
structure Engine where
  planner : Option Planner
  lead : Duration
  digest : Planner.Payload → String
  format : Time → String

/-! ### The topology at an instant -/

/-- The variables of the first loop of `SnapshotAt`: the links, and the index of each id. -/
structure Placed where
  links : List Link
  byID : Map ℕ

/-- The index of each link id. A later link takes the place of an earlier one. -/
def indexLinks (links : List Link) : Map ℕ :=
  links.zipIdx.foldl (fun byID l => byID.insert l.1.id l.2) ∅

/-- A round of the first loop of `SnapshotAt`: a link that is not there is appended, and inside
the window it is up until the window ends. -/
def placeWindow (at_ : Time) (p : Placed) (w : ContactWindow) : Except String Placed := do
  w.validate
  let p := match p.byID.lookup w.link.id with
    | some _ => p
    | none => ⟨p.links ++ [w.link], p.byID.insert w.link.id p.links.length⟩
  if w.covers at_ then
    return { p with links := p.links.set ((p.byID.lookup w.link.id).getD 0) { w.link with
      adminUp := true
      operationalUp := true
      validUntil := w.end_
      availabilityEnd := w.end_ } }
  else return p

/-- A round of the second loop of `SnapshotAt`: a link of which no window covers the instant is
down. -/
def closeLink (windows : List ContactWindow) (at_ : Time) (byID : Map ℕ) (links : List Link)
    (id : String) : List Link :=
  -- only ids of windows come here: a link without any keeps the state it has in the base
  if windows.any fun w => w.link.id = id && w.covers at_ then links
  else links.modify ((byID.lookup id).getD 0) fun link => { link with operationalUp := false }

def snapshotAt (base : TopologySnapshot) (windows : List ContactWindow) (at_ validUntil : Time)
    (version : UInt64) : Except String TopologySnapshot := do
  let placed ← windows.foldlM (placeWindow at_) ⟨base.links, indexLinks base.links⟩
  let snapshot := { base with
    version := version
    generatedAt := at_
    validFrom := at_
    validUntil := validUntil
    links := (windows.map fun w => w.link.id).foldl (closeLink windows at_ placed.byID)
      placed.links }
  snapshot.validate
  return snapshot

/-! ### The schedule -/

def routesTo (plan : RoutePlan) (destination : String) : List RouteOperation :=
  plan.routes.filter fun route => route.routePrefix = destination

/-- `changedPrefixes`, with the comparison of `routeSlicesEqual`. -/
def changedPrefixes (a b : RoutePlan) : List String :=
  sortStrings ((((a.routes ++ b.routes).map RouteOperation.routePrefix).dedup).filter
    fun destination => sortRoutes (routesTo a destination) ≠ sortRoutes (routesTo b destination))

/-- The instants at which the topology changes, from `now` to the end of the horizon. The
repetitions that `uniqueTimes` drops are next to each other. -/
def boundaries (windows : List ContactWindow) (now : Time) (horizon : Duration) : List Time :=
  -- a boundary at the end of the horizon still counts, one at `now` is there already
  let later := (windows.flatMap fun w => [w.start, w.end_]).filter fun boundary =>
    now < boundary && !(now + horizon < boundary)
  ((now :: later).insertionSort (· ≤ ·)).destutter (· ≠ ·)

/-- When a boundary is acted on: `lead` before it, and not before `now`. -/
def activateAt (lead : Duration) (now at_ : Time) : Time :=
  if now < at_ then (if at_ - lead < now then now else at_ - lead) else at_

def forecast (e : Engine) (p : Planner) (clock : Time) (base : TopologySnapshot)
    (windows : List ContactWindow) (intents : List RouteIntent) (now : Time) :
    ℕ → Option RoutePlan → List Time → Except Failure (List Activation)
  | _, _, [] => .ok []
  | index, previous, at_ :: rest => do
    -- a topology is valid until the next boundary; the last one has no end
    let snapshot ← Planner.check ""
      (snapshotAt base windows at_ (rest.head?.getD 0) (base.version + index.toUInt64))
    let plan ← (Planner.build e.digest p clock snapshot intents at_).mapError
      (Failure.wrap ("build forecast at " ++ e.format at_ ++ ": "))
    Planner.check ("shadow validation at " ++ e.format at_ ++ ": ")
      (Validation.plan plan snapshot at_)
    let activation : Activation := {
      topologyAt := at_
      activateAt := activateAt e.lead now at_
      topology := snapshot
      plan := plan
      shadowValidated := true
      changedPrefixes := (previous.map fun before => changedPrefixes before plan).getD [] }
    let more ← forecast e p clock base windows intents now (index + 1) (some plan) rest
    return activation :: more

/-- The loop over the windows in `Schedule`: the first invalid one is reported. -/
def checkWindows : ℕ → List ContactWindow → Except String Unit
  | _, [] => .ok ()
  | index, w :: rest =>
    match w.validate with
    | .error e => .error ("contact window " ++ toString index ++ ": " ++ e)
    | .ok () => checkWindows (index + 1) rest

def schedule (e : Engine) (clock : Time) (base : TopologySnapshot) (windows : List ContactWindow)
    (intents : List RouteIntent) (now : Time) (horizon : Duration) :
    Except Failure (List Activation) :=
  match e.planner with
  | none => .error (.error "predictive engine requires a planner")
  | some p =>
    if horizon ≤ 0 then .error (.error "predictive horizon must be positive")
    else if e.lead < 0 then
      .error (.error "predictive activation lead cannot be negative")
    else do
      Planner.check "" (checkWindows 0 windows)
      forecast e p clock base windows intents now 0 none (boundaries windows now horizon)

end StarFabric.Predictive

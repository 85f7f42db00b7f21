import StarFabric.Lib.Threads
import StarFabric.Topology.Store
import StarFabric.Reconcile.World
import StarFabric.Predictive.Engine

/-!
# The controller

`internal/app/app.go` and `internal/app/predictive.go`: the calls on an `App`, and the workers of
the predictive schedules, as programs over what they ask of the outside (`Call`). The mutexes of the
reconciler and of the schedules are taken and released by calls of their own. Metrics, logs, and the
fault injection of the digital twin are left out.
-/

namespace StarFabric.App

open Go EffectProgram Predictive

def errNotLeader : String := "controller is not the active leader"

/-! ### State -/

inductive ScheduleState where
  | running
  | completed
  | failed
  deriving DecidableEq, Repr

structure PredictiveSchedule where
  id : String
  state : ScheduleState
  baseTopologyVersion : UInt64
  expectedTopologyVersion : UInt64
  createdAt : Time
  updatedAt : Time
  nextActivation : ℤ
  activations : List Activation
  error : String := ""

structure PersistedIntents where
  schemaVersion : ℤ
  intents : List RouteIntent

structure PersistedSchedules where
  schemaVersion : ℤ
  schedules : Map PredictiveSchedule

structure Memory where
  topology : Topology.Store
  intents : List RouteIntent
  reconciler : Reconcile.Reconciler
  schedules : Map PredictiveSchedule

/-- `Config`, with the digest of a plan's id and the layout of an instant. -/
structure Config where
  topologyStatePath : String
  intentsStatePath : String
  predictiveStatePath : String
  planTTL : Duration := 0
  maxTelemetryAge : Duration := 0
  nodeDisjoint : Bool := false
  reconcile : Reconcile.Config
  digest : Planner.Payload → String
  format : Time → String

/-- The planner of the `App`, with the built-in policies. -/
def Config.planner (cfg : Config) : Planner :=
  Planner.new { planTTL := cfg.planTTL, maxTelemetryAge := cfg.maxTelemetryAge,
                nodeDisjoint := cfg.nodeDisjoint }

inductive ReadError where
  | notExist
  | failed (text : String)
  deriving DecidableEq, Repr

/-! ### Calls -/

inductive Call where
  | isLeader
  | now
  | wait (activateAt : Time)
  | intents
  | setIntents (intents : List RouteIntent)
  | readIntents
  | writeIntents (state : PersistedIntents)
  | snapshot
  | applyEvent (event : TopologyEvent)
  | applyEvents (events : List TopologyEvent)
  | replace (snapshot : TopologySnapshot)
  | readTopology
  | setTopology (state : Topology.PersistentState)
  | syncDeviceHealth (snapshot : TopologySnapshot)
  | reconciler
  | lockReconciler
  | unlockReconciler (reconciler : Reconcile.Reconciler)
  | apply (call : Reconcile.Call)
  | readReconcile
  | schedules
  | lockSchedules
  | unlockSchedules (schedules : Map PredictiveSchedule)
  | readSchedules
  | writeSchedules (state : PersistedSchedules)
  | start (memory : Memory)

def Call.Answer : Call → Type
  | isLeader | wait _ => Bool
  | now => Time
  | intents => List RouteIntent
  | readIntents => Except ReadError PersistedIntents
  | snapshot => TopologySnapshot
  | applyEvent _ | applyEvents _ => Topology.Reply
  | replace _ | writeIntents _ | writeSchedules _ => Option String
  | readTopology => Except ReadError Topology.PersistentState
  | reconciler | lockReconciler => Reconcile.Reconciler
  | apply call => call.Answer
  | readReconcile => Except ReadError Reconcile.PersistentState
  | schedules | lockSchedules => Map PredictiveSchedule
  | readSchedules => Except ReadError PersistedSchedules
  | setIntents _ | setTopology _ | syncDeviceHealth _ | unlockReconciler _ | unlockSchedules _
  | start _ => Unit

def iface : Interface := ⟨Call, Call.Answer⟩

namespace Ask

def isLeader : Prog iface Bool := Prog.ask (I := iface) Call.isLeader
def now : Prog iface Time := Prog.ask (I := iface) Call.now
def wait (activateAt : Time) : Prog iface Bool := Prog.ask (I := iface) (Call.wait activateAt)
def intents : Prog iface (List RouteIntent) := Prog.ask (I := iface) Call.intents

def setIntents (intents : List RouteIntent) : Prog iface Unit :=
  Prog.ask (I := iface) (Call.setIntents intents)

def readIntents : Prog iface (Except ReadError PersistedIntents) :=
  Prog.ask (I := iface) Call.readIntents

def writeIntents (state : PersistedIntents) : Prog iface (Option String) :=
  Prog.ask (I := iface) (Call.writeIntents state)

def snapshot : Prog iface TopologySnapshot := Prog.ask (I := iface) Call.snapshot

def applyEvent (event : TopologyEvent) : Prog iface Topology.Reply :=
  Prog.ask (I := iface) (Call.applyEvent event)

def applyEvents (events : List TopologyEvent) : Prog iface Topology.Reply :=
  Prog.ask (I := iface) (Call.applyEvents events)

def replace (snapshot : TopologySnapshot) : Prog iface (Option String) :=
  Prog.ask (I := iface) (Call.replace snapshot)

def readTopology : Prog iface (Except ReadError Topology.PersistentState) :=
  Prog.ask (I := iface) Call.readTopology

def setTopology (state : Topology.PersistentState) : Prog iface Unit :=
  Prog.ask (I := iface) (Call.setTopology state)

def syncDeviceHealth (snapshot : TopologySnapshot) : Prog iface Unit :=
  Prog.ask (I := iface) (Call.syncDeviceHealth snapshot)

def reconciler : Prog iface Reconcile.Reconciler := Prog.ask (I := iface) Call.reconciler

def lockReconciler : Prog iface Reconcile.Reconciler :=
  Prog.ask (I := iface) Call.lockReconciler

def unlockReconciler (reconciler : Reconcile.Reconciler) : Prog iface Unit :=
  Prog.ask (I := iface) (Call.unlockReconciler reconciler)

def readReconcile : Prog iface (Except ReadError Reconcile.PersistentState) :=
  Prog.ask (I := iface) Call.readReconcile

def schedules : Prog iface (Map PredictiveSchedule) := Prog.ask (I := iface) Call.schedules

def lockSchedules : Prog iface (Map PredictiveSchedule) :=
  Prog.ask (I := iface) Call.lockSchedules

def unlockSchedules (schedules : Map PredictiveSchedule) : Prog iface Unit :=
  Prog.ask (I := iface) (Call.unlockSchedules schedules)

def readSchedules : Prog iface (Except ReadError PersistedSchedules) :=
  Prog.ask (I := iface) Call.readSchedules

def writeSchedules (state : PersistedSchedules) : Prog iface (Option String) :=
  Prog.ask (I := iface) (Call.writeSchedules state)

def start (memory : Memory) : Prog iface Unit := Prog.ask (I := iface) (Call.start memory)

end Ask

/-! ### Intents -/

/-- The loop over the intents in `SetIntents` and `readIntents`, which differ in the text. -/
def checkIntents (kind : String) : List String → List RouteIntent → Except String Unit
  | _, [] => .ok ()
  | ids, intent :: rest =>
    match intent.validate with
    | .error e => .error (kind ++ quote intent.id ++ ": " ++ e)
    | .ok () =>
      if intent.id ∈ ids then .error ("duplicate " ++ kind ++ quote intent.id)
      else checkIntents kind (intent.id :: ids) rest

def persistIntents (cfg : Config) (intents : List RouteIntent) : Prog iface (Option String) :=
  if cfg.intentsStatePath = "" then return none
  else Ask.writeIntents ⟨1, intents⟩

def readIntents : Prog iface (Except ReadError (List RouteIntent)) := do
  match ← Ask.readIntents with
  | .error e => return .error e
  | .ok state =>
    if state.schemaVersion ≠ 1 then
      return .error (.failed
        ("unsupported desired-intent schema version " ++ toString state.schemaVersion))
    else
      match checkIntents "persisted intent " [] state.intents with
      | .error e => return .error (.failed e)
      | .ok () => return .ok state.intents

/-- `loadIntents`: the intents of the state file, or the fallback, which is then written. -/
def loadIntents (cfg : Config) (fallback : List RouteIntent) :
    Prog iface (Except String (List RouteIntent)) := do
  if cfg.intentsStatePath = "" then return .ok fallback
  else
    match ← readIntents with
    | .ok intents => return .ok intents
    | .error (.failed e) => return .error e
    -- a first start: the intents of the configuration become the desired ones
    | .error .notExist =>
      match ← persistIntents cfg fallback with
      | some e => return .error e
      | none => return .ok fallback

def setIntents (cfg : Config) (intents : List RouteIntent) : Prog iface (Option String) := do
  if ← Ask.isLeader then
    match checkIntents "intent " [] intents with
    | .error e => return some e
    | .ok () =>
      -- the file is written before the mutex is taken for the assignment
      match ← persistIntents cfg intents with
      | some e => return some ("persist desired intents: " ++ e)
      | none =>
        Ask.setIntents intents
        return none
  else return some errNotLeader

/-! ### Plans -/

def preview (cfg : Config) : Prog iface (Except Policy.Failure RoutePlan) := do
  -- the intents and the topology are read one after the other, each under its own mutex
  let intents ← Ask.intents
  let snapshot ← Ask.snapshot
  let now ← Ask.now
  -- `Build` reads the clock once more
  let clock ← Ask.now
  return Planner.build cfg.digest cfg.planner clock snapshot intents now

/-- The text of a failed call. A panic ends the goroutine of the call in the same way. -/
def failureText : Policy.Failure → String
  | .error text | .panic text => text

/-- `ApplyPlan`: `Reconciler.Apply`, which holds its mutex from the beginning to the end. -/
def applyPlan (cfg : Config) (plan : RoutePlan) : Prog iface (ReconcileStatus × Option String) := do
  let r ← Ask.lockReconciler
  let outcome ← (Reconcile.apply cfg.reconcile r plan).embed (K := iface) Call.apply
    fun _ answer => answer
  Ask.unlockReconciler outcome.reconciler
  return (outcome.status, outcome.err)

def reconcile (cfg : Config) : Prog iface (RoutePlan × ReconcileStatus × Option String) := do
  if ← Ask.isLeader then
    match ← preview cfg with
    | .error e => return (RoutePlan.zero, {}, some (failureText e))
    | .ok plan => return (plan, ← applyPlan cfg plan)
  -- a standby reports the status of its reconciler
  else return (RoutePlan.zero, (← Ask.reconciler).status, some errNotLeader)

/-! ### Topology events -/

/-- The frame of `ApplyEvent` and `ApplyEvents`: hand the events to the store, and bring the
devices in line with the new topology. -/
def withStore (store : Prog iface Topology.Reply) : Prog iface Topology.Reply := do
  if ← Ask.isLeader then
    let reply ← store
    -- a refused event does not reach the devices
    if reply.err = none then Ask.syncDeviceHealth reply.snapshot
    return reply
  else return ⟨← Ask.snapshot, some errNotLeader⟩

def applyEvent (event : TopologyEvent) : Prog iface Topology.Reply :=
  withStore (Ask.applyEvent event)

def applyEvents (events : List TopologyEvent) : Prog iface Topology.Reply :=
  withStore (Ask.applyEvents events)

/-! ### Predictive schedules -/

def persistPredictiveSchedules (cfg : Config) (schedules : Map PredictiveSchedule) :
    Prog iface (Option String) :=
  if cfg.predictiveStatePath = "" then return none
  else Ask.writeSchedules ⟨1, schedules⟩

/-- The schedule that `CreatePredictiveSchedule` makes of a forecast. The first activation is
skipped when the committed plan has its routes already. -/
def newSchedule (base : TopologySnapshot) (activations : List Activation) (now : Time)
    (committed : Option RoutePlan) : PredictiveSchedule :=
  let skip : Bool := match committed, activations with
    | some plan, first :: _ => sortRoutes plan.routes = sortRoutes first.plan.routes
    | _, _ => false
  let next : ℤ := if skip then 1 else 0
  { id := "predictive-" ++ toString now.unixNano
    state := if activations.length ≤ next then .completed else .running
    baseTopologyVersion := base.version
    expectedTopologyVersion := base.version
    createdAt := now
    updatedAt := now
    nextActivation := next
    activations := activations }

/-- `CreatePredictiveSchedule`. The worker of the new schedule is a thread of its own. -/
def createPredictiveSchedule (cfg : Config) (windows : List ContactWindow)
    (horizon lead : Duration) : Prog iface (Except String PredictiveSchedule) := do
  if ← Ask.isLeader then
    let base ← Ask.snapshot
    let intents ← Ask.intents
    -- the horizon begins at this instant
    let from_ ← Ask.now
    let clock ← Ask.now
    let engine : Engine := ⟨some cfg.planner, lead, cfg.digest, cfg.format⟩
    -- the forecast begins at the version after the base
    match Predictive.schedule engine clock { base with version := base.version + 1 } windows
        intents from_ horizon with
    | .error e => return .error (failureText e)
    | .ok activations =>
      let now ← Ask.now
      -- the mutex of the reconciler is held only for this reading
      let r ← Ask.reconciler
      let schedule := newSchedule base activations now r.committedPlan
      let schedules ← Ask.lockSchedules
      -- one schedule at a time
      match schedules.entries.find? fun current => current.2.state = .running with
      | some current =>
        Ask.unlockSchedules schedules
        return .error ("predictive schedule " ++ current.2.id ++ " is already running")
      | none =>
        let added := schedules.insert schedule.id schedule
        match ← persistPredictiveSchedules cfg added with
        | some e =>
          -- the schedule is taken out again, and nothing was promised to the caller
          Ask.unlockSchedules (added.erase schedule.id)
          return .error ("persist predictive schedule: " ++ e)
        | none =>
          Ask.unlockSchedules added
          return .ok schedule
  else return .error errNotLeader

/-- The topology that `activatePrediction` puts back when the plan cannot be applied. -/
def restoredTopology (previous activated : TopologySnapshot) (now : Time) : TopologySnapshot :=
  { previous with
    version := activated.version + 1
    generatedAt := now
    validFrom := now
    validUntil := 0 }

/-- The part of `activatePrediction` after its guards. -/
def activate (cfg : Config) (previous : TopologySnapshot) (activation : Activation) :
    Prog iface (Option String) := do
  -- the predicted topology comes first, since the plan is validated against the store
  match ← Ask.replace activation.topology with
  | some e => return some ("activate predicted topology: " ++ e)
  | none =>
    Ask.syncDeviceHealth activation.topology
    match (← applyPlan cfg activation.plan).2 with
    | none => return none
    | some e =>
      let now ← Ask.now
      let restored := restoredTopology previous activation.topology now
      -- the devices are synced even if the topology cannot be put back
      let restoreErr ← Ask.replace restored
      Ask.syncDeviceHealth restored
      return some (joinErrors (("apply predicted plan: " ++ e) :: restoreErr.toList))

def activatePrediction (cfg : Config) (id : String) (activation : Activation) :
    Prog iface (Option String) := do
  if ← Ask.isLeader then
    match (← Ask.schedules).lookup id with
    | none => return some "predictive schedule is no longer running"
    | some schedule =>
      if schedule.state ≠ .running then return some "predictive schedule is no longer running"
      else
        let current ← Ask.snapshot
        -- the topology was activated already, and the committed plan tells whether the rest was
        if current.version = activation.topology.version then
          let r ← Ask.reconciler
          if r.committedPlan.map RoutePlan.id = some activation.plan.id then return none
          else return some ("topology " ++ toString current.version ++
            " was activated without predicted plan " ++ activation.plan.id)
        -- the check on which the worker relies until it replaces the topology
        else if current.version ≠ schedule.expectedTopologyVersion then
          return some ("topology changed since forecast: expected " ++
            toString schedule.expectedTopologyVersion ++ ", current " ++
            toString current.version)
        else activate cfg current activation
  else return some errNotLeader

def PredictiveSchedule.finish (schedule : PredictiveSchedule) (now : Time) (version : UInt64) :
    Option String → PredictiveSchedule
  | some e => { schedule with updatedAt := now, state := .failed, error := e }
  | none =>
    { schedule with
      updatedAt := now
      expectedTopologyVersion := version
      nextActivation := schedule.nextActivation + 1
      state := if schedule.activations.length ≤ schedule.nextActivation + 1 then .completed
        else schedule.state }

/-- `finishPredictiveActivation`. A failed write is only logged. -/
def finishPredictiveActivation (cfg : Config) (id : String) (version : UInt64)
    (activationErr : Option String) : Prog iface Unit := do
  let schedules ← Ask.lockSchedules
  match schedules.lookup id with
  | none => Ask.unlockSchedules schedules
  | some schedule =>
    let now ← Ask.now
    let schedules := schedules.insert id (schedule.finish now version activationErr)
    -- memory and file may differ from here on
    let _ ← persistPredictiveSchedules cfg schedules
    Ask.unlockSchedules schedules

def PredictiveSchedule.next (schedule : PredictiveSchedule) : Option Activation :=
  if schedule.state = .running then schedule.activations[schedule.nextActivation.toNat]? else none

/-- One pass of the loop of `runPredictiveSchedule`. -/
def runPredictiveSchedule (cfg : Config) (id : String) : Prog iface Verdict := do
  match ((← Ask.schedules).lookup id).bind PredictiveSchedule.next with
  | none => return .stop
  | some activation =>
    if ← Ask.wait activation.activateAt then
      match ← activatePrediction cfg id activation with
      | some e =>
        -- a failed schedule has no more activations
        finishPredictiveActivation cfg id 0 (some e)
        return .stop
      | none =>
        finishPredictiveActivation cfg id activation.topology.version none
        return .again
    -- the context is done before the instant of the activation
    else return .stop

/-! ### Start-up and takeover -/

def checkSchedule (id : String) (schedule : PredictiveSchedule) : Bool :=
  id ≠ "" && id = schedule.id && 0 ≤ schedule.nextActivation &&
    schedule.nextActivation ≤ schedule.activations.length

def loadPredictiveSchedules (cfg : Config) :
    Prog iface (Except String (Map PredictiveSchedule)) := do
  if cfg.predictiveStatePath = "" then return .ok ∅
  else
    match ← Ask.readSchedules with
    -- no schedule was ever made
    | .error .notExist => return .ok ∅
    | .error (.failed e) => return .error e
    | .ok state =>
      if state.schemaVersion ≠ 1 then
        return .error ("unsupported predictive schedule schema " ++ toString state.schemaVersion)
      else
        match state.schedules.entries.find? fun s => !checkSchedule s.1 s.2 with
        | some s => return .error ("invalid persisted predictive schedule " ++ quote s.1)
        | none => return .ok state.schedules

def loadTopology (path : String) : Prog iface (Except ReadError Topology.Store) := do
  match ← Ask.readTopology with
  | .error e => return .error e
  | .ok state =>
    match state.snapshot.validate with
    | .error e => return .error (.failed ("invalid persisted topology: " ++ e))
    | .ok () => return .ok ⟨state.snapshot, state.seenEvents, state.lastSequences, path⟩

/-- The store that `Load` opens: the state file, or the fallback when there is none. -/
def openStore (cfg : Config) (fallback : TopologySnapshot) :
    Prog iface (Except String Topology.Store) := do
  if cfg.topologyStatePath = "" then return Topology.Store.new fallback ""
  else
    match ← loadTopology cfg.topologyStatePath with
    | .ok store => return .ok store
    -- the topology of the configuration, not written before the first change
    | .error .notExist => return Topology.Store.new fallback cfg.topologyStatePath
    | .error (.failed e) => return .error e

def validateIntents : List RouteIntent → Except String Unit
  | [] => .ok ()
  | intent :: rest =>
    match intent.validate with
    | .error e => .error ("intent " ++ quote intent.id ++ ": " ++ e)
    | .ok () => validateIntents rest

/-- `reconcile.New`, as far as it loads the state file. -/
def loadReconciler (cfg : Config) : Prog iface (Except String Reconcile.Reconciler) := do
  if cfg.reconcile.statePath = "" then return .ok {}
  else
    match ← Ask.readReconcile with
    | .ok state => return .ok (Reconcile.load (some state))
    | .error .notExist => return .ok {}
    | .error (.failed e) => return .error e

/-- `Load` and `newWithStore`: the error that stops the controller, if any. -/
def load (cfg : Config) (fallback : TopologySnapshot) (intents : List RouteIntent) :
    Prog iface (Option String) := do
  match ← openStore cfg fallback with
  | .error e => return some e
  | .ok store =>
    match ← loadIntents cfg intents with
    | .error e => return some e
    | .ok intents =>
      match validateIntents intents with
      | .error e => return some e
      | .ok () =>
        match ← loadReconciler cfg with
        | .error e => return some e
        | .ok reconciler =>
          match ← loadPredictiveSchedules cfg with
          | .error e => return some e
          | .ok schedules =>
            -- from here on there is a controller: its adapters are created, and its workers resumed
            Ask.start ⟨store, intents, reconciler, schedules⟩
            return none

def reloadTopology (cfg : Config) : Prog iface (Option String) := do
  if cfg.topologyStatePath = "" then return none
  else
    match ← loadTopology cfg.topologyStatePath with
    | .error (.failed e) => return some e
    -- the memory stays as it is
    | .error .notExist => return none
    | .ok store =>
      Ask.setTopology ⟨store.snapshot, store.seenEvents, store.lastSequences⟩
      return none

def reloadReconciler (cfg : Config) : Prog iface (Option String) := do
  let r ← Ask.lockReconciler
  if cfg.reconcile.statePath = "" then
    Ask.unlockReconciler r
    return none
  else
    match ← Ask.readReconcile with
    | .ok state =>
      Ask.unlockReconciler (Reconcile.load (some state))
      return none
    | .error .notExist =>
      Ask.unlockReconciler r
      return none
    | .error (.failed e) =>
      Ask.unlockReconciler r
      return some e

def reloadIntents (cfg : Config) : Prog iface (Option String) := do
  if cfg.intentsStatePath = "" then return none
  else
    match ← readIntents with
    | .error (.failed e) => return some e
    -- the memory stays as it is
    | .error .notExist => return none
    | .ok intents =>
      Ask.setIntents intents
      return none

/-- `Reload`, which runs before a new leader is published. -/
def reload (cfg : Config) : Prog iface (Option String) := do
  match ← reloadTopology cfg with
  | some e => return some e
  | none =>
    match ← reloadReconciler cfg with
    | some e => return some e
    | none =>
      match ← reloadIntents cfg with
      | some e => return some e
      | none =>
        -- new nodes get a device, but neither schedules nor adapter records are read again
        Ask.syncDeviceHealth (← Ask.snapshot)
        return none

/-! ### Jobs -/

inductive Job where
  | load (fallback : TopologySnapshot) (intents : List RouteIntent)
  | reload
  | setIntents (intents : List RouteIntent)
  | reconcile
  | applyPlan (plan : RoutePlan)
  | applyEvent (event : TopologyEvent)
  | applyEvents (events : List TopologyEvent)
  | createPredictiveSchedule (windows : List ContactWindow) (horizon lead : Duration)
  | runPredictiveSchedule (id : String)

def once {α : Type} (p : Prog iface α) : Prog iface Verdict := do
  let _ ← p
  return .stop

def Job.program (cfg : Config) : Job → Prog iface Verdict
  | load fallback intents => once (App.load cfg fallback intents)
  | reload => once (App.reload cfg)
  | setIntents intents => once (App.setIntents cfg intents)
  | reconcile => once (App.reconcile cfg)
  | applyPlan plan => once (App.applyPlan cfg plan)
  | applyEvent event => once (App.applyEvent event)
  | applyEvents events => once (App.applyEvents events)
  | createPredictiveSchedule windows horizon lead =>
    once (App.createPredictiveSchedule cfg windows horizon lead)
  | runPredictiveSchedule id => App.runPredictiveSchedule cfg id

end StarFabric.App

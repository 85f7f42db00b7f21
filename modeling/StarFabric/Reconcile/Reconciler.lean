import StarFabric.Lib.Prog
import StarFabric.Validation
import StarFabric.Adapter

/-!
# The reconciler

`internal/reconcile/reconciler.go`: health check, prepare, commit in batches, verification and
persistence, and rollback in reverse order, as a program over the calls it makes (`Call`). The
goroutines of one batch of `readDevices` are run one after the other, in an order that is asked for.
Metrics, logs, timeouts and the length of waits are left out.
-/

namespace StarFabric.Reconcile

open Go EffectProgram

/-! ### State and calls -/

structure PersistentState where
  status : ReconcileStatus
  committedPlan : Option RoutePlan
  pendingDevices : List String

/-- `Config`, after the defaults of `New`. -/
structure Config where
  retryCount : ℕ
  batchSize : ℕ
  batchSize_pos : 0 < batchSize
  statePath : String
  verifier : Bool

def Config.new (retryCount batchSize : ℤ) (statePath : String) (verifier : Bool) : Config where
  retryCount := retryCount.toNat
  batchSize := if batchSize ≤ 0 then 4 else batchSize.toNat
  batchSize_pos := by split_ifs <;> omega
  statePath := statePath
  verifier := verifier

/-- The mutable fields of `Reconciler`. The keys of the map `pendingDevices` are a
list. -/
structure Reconciler where
  status : ReconcileStatus := {}
  committedPlan : Option RoutePlan := none
  pendingDevices : List String := []

inductive Call where
  | topology
  | now
  | done
  | order
  | get (name : String)
  | health (name : String)
  | prepare (name : String) (plan : RoutePlan)
  | commit (name planID : String)
  | rollback (name planID : String)
  | state (name : String)
  | verify (plan : RoutePlan)
  | write (state : PersistentState)

/-- What each call is answered with. A nil error is `.ok ()`. -/
def Call.Answer : Call → Type
  | topology => TopologySnapshot
  | now => Time
  | done => Option String
  | order => String → ℕ
  | get _ => Bool
  | state _ => Except String DeviceState
  | health _ | prepare _ _ | commit _ _ | rollback _ _ | verify _ | write _ =>
    Except String Unit

def iface : Interface := ⟨Call, Call.Answer⟩

namespace Ask

def topology : Prog iface TopologySnapshot := Prog.ask (I := iface) Call.topology
def now : Prog iface Time := Prog.ask (I := iface) Call.now
def done : Prog iface (Option String) := Prog.ask (I := iface) Call.done
def order : Prog iface (String → ℕ) := Prog.ask (I := iface) Call.order
def get (name : String) : Prog iface Bool := Prog.ask (I := iface) (Call.get name)

def health (name : String) : Prog iface (Except String Unit) :=
  Prog.ask (I := iface) (Call.health name)

def prepare (name : String) (plan : RoutePlan) : Prog iface (Except String Unit) :=
  Prog.ask (I := iface) (Call.prepare name plan)

def commit (name planID : String) : Prog iface (Except String Unit) :=
  Prog.ask (I := iface) (Call.commit name planID)

def rollback (name planID : String) : Prog iface (Except String Unit) :=
  Prog.ask (I := iface) (Call.rollback name planID)

def state (name : String) : Prog iface (Except String DeviceState) :=
  Prog.ask (I := iface) (Call.state name)

def verify (plan : RoutePlan) : Prog iface (Except String Unit) :=
  Prog.ask (I := iface) (Call.verify plan)

def write (state : PersistentState) : Prog iface (Except String Unit) :=
  Prog.ask (I := iface) (Call.write state)

end Ask

/-! ### Device calls -/

/-- The attempts of `invoke`: `operation` until it succeeds, `retries` more times at
most, given up when the context is over. -/
def invokeAux {α : Type} (operation : Prog iface (Except String α)) :
    ℕ → Prog iface (Except String α)
  | 0 => operation
  | retries + 1 => do
    match ← operation with
    | .ok a => return .ok a
    -- every error is tried again, whatever it is
    | .error _ =>
      match ← Ask.done with
      | some e => return .error e
      | none => invokeAux operation retries

def invoke {α : Type} (cfg : Config) (operation : Prog iface (Except String α)) :
    Prog iface (Except String α) :=
  invokeAux operation cfg.retryCount

def errUnregistered (name : String) : String :=
  "no device adapter registered for " ++ quote name

def readDevice (read : String → Prog iface (Except String Unit)) (name : String) :
    Prog iface (String × Except String Unit) := do
  if ← Ask.get name then return (name, ← read name)
  else return (name, .error (errUnregistered name))

/-- The batches of `readDevices`. The names of a batch are distinct, so that a
result is found by its name. -/
def readBatch (read : String → Prog iface (Except String Unit)) (names : List String) :
    Prog iface (List (Except String Unit)) := do
  let rank ← Ask.order
  -- the results are put back into the order of the names
  let results ← Prog.forEach (readDevice read)
    (names.insertionSort fun a b => rank a ≤ rank b)
  return names.map fun name => (results.lookup name).getD (.ok ())

def readDevices (cfg : Config) (names : List String)
    (read : String → Prog iface (Except String Unit)) : Prog iface (List (Except String Unit)) := do
  let results ← Prog.forEach (readBatch read) (chunks (min cfg.batchSize 32) names)
  return results.flatten

def planOf (plans : Map RoutePlan) (name : String) : RoutePlan :=
  (plans.lookup name).getD RoutePlan.zero

def verifyDevice (cfg : Config) (planID : String) (plans : Map RoutePlan) (name : String) :
    Prog iface (Except String Unit) := do
  match ← invoke cfg (Ask.state name) with
  | .error e => return .error ("read state " ++ name ++ ": " ++ e)
  | .ok state =>
    -- an empty plan id means drift, and does not equal the id of a valid plan
    if state.healthy = false ∨ state.appliedPlanID ≠ planID then
      return .error ("device " ++ name ++ " did not apply plan " ++ planID)
    else if sortRoutes state.routes ≠ sortRoutes (planOf plans name).routes then
      return .error ("device " ++ name ++ " desired/actual route mismatch")
    else return .ok ()

def firstError : List (Except String Unit) → Except String Unit
  | [] => .ok ()
  | .ok () :: rest => firstError rest
  -- the other errors are dropped
  | .error e :: _ => .error e

def verify (cfg : Config) (planID : String) (names : List String) (plans : Map RoutePlan) :
    Prog iface (Except String Unit) := do
  return firstError (← readDevices cfg names (verifyDevice cfg planID plans))

def precheckDevice (cfg : Config) (name : String) : Prog iface (Except String Unit) := do
  match ← invoke cfg (Ask.health name) with
  | .error e => return .error e
  | .ok () =>
    match ← invoke cfg (Ask.state name) with
    | .error e => return .error e
    | .ok state =>
      if state.healthy = false then return .error Adapter.errUnhealthy else return .ok ()

/-! ### Splitting a plan -/

/-- The devices of the committed plan in the order of their first route, and the
pending devices after them. -/
def additionalDevices (r : Reconciler) : List String :=
  let committed := match r.committedPlan with
    | none => []
    | some plan => (plan.routes.map RouteOperation.device).foldl appendMissing []
  r.pendingDevices.foldl appendMissing committed

/-- One round of the second loop of `splitPlan`. -/
def splitRoute (plan : RoutePlan) (out : Map RoutePlan) (route : RouteOperation) :
    Except String (Map RoutePlan) :=
  if route.device = "" then .error "route device is required"
  else
    -- a device without a plan of its own yet gets a copy of the plan without routes
    let devicePlan := (out.lookup route.device).getD { plan with routes := [] }
    .ok (out.insert route.device { devicePlan with routes := devicePlan.routes ++ [route] })

def splitPlan (plan : RoutePlan) (additional : List String) : Except String (Map RoutePlan) :=
  plan.routes.foldlM (splitRoute plan)
    (additional.foldl (fun out name => out.insert name { plan with routes := [] }) ∅)

/-! ### Failure -/

/-- `persist`. The empty state path means that nothing is written. -/
def persist (cfg : Config) (r : Reconciler) : Prog iface (Except String Unit) :=
  if cfg.statePath = "" then return .ok ()
  else Ask.write ⟨r.status, r.committedPlan, sortStrings r.pendingDevices⟩

/-- The rollback of one device in `fail`: its error, if any. -/
def rollbackDevice (planID name : String) : Prog iface (Option String) := do
  -- a device that is not registered any more is passed over
  if ← Ask.get name then
    match ← Ask.rollback name planID with
    | .ok () => return none
    | .error e => return some ("rollback " ++ name ++ ": " ++ e)
  else return none

structure Outcome where
  reconciler : Reconciler
  err : Option String

def Outcome.status (o : Outcome) : ReconcileStatus := o.reconciler.status

/-- `fail`: roll the named devices back from the last to the first, and persist. -/
def fail (cfg : Config) (r : Reconciler) (cause : String) (rollback : List String) :
    Prog iface Outcome := do
  -- rollbacks are not tried again, and an error does not stop the others
  let errs ← Prog.forEach (rollbackDevice r.status.planID) rollback.reverse
  let rollbackErrs := errs.reduceOption
  let finishedAt ← Ask.now
  let status := { r.status with
    error := cause
    rollbackReason := cause
    finishedAt := finishedAt
    -- a failure before anything was prepared has nothing to roll back
    phase := if rollbackErrs = [] ∧ rollback ≠ [] then .rolledBack else .failed }
  let r := { r with status := status }
  -- the error of this write is dropped
  let _ ← persist cfg r
  return ⟨r, some (if rollbackErrs = [] then cause else joinErrors (cause :: rollbackErrs))⟩

/-- Why a stage of `Apply` gives up: the status so far, the error, and the devices to
roll back. -/
structure Failure where
  status : ReconcileStatus
  cause : String
  rollback : List String

/-! ### The stages of `Apply` -/

structure Staged where
  prepared : List String := []
  activeNames : List String := []
  deferred : List String := []
  status : ReconcileStatus

def prepareLoop (cfg : Config) (plans : Map RoutePlan) :
    List (String × Except String Unit) → Staged → Prog iface (Except Failure Staged)
  | [], s => return .ok s
  | (name, health) :: rest, s => do
    let failed := { s.status with failedDevices := s.status.failedDevices ++ [name] }
    if ← Ask.get name then
      match health, (planOf plans name).routes with
      -- a device that is ill and only has routes to lose is left for later
      | .error _, [] =>
        prepareLoop cfg plans rest { s with
          deferred := s.deferred ++ [name]
          status := { s.status with deferredDevices := s.status.deferredDevices ++ [name] } }
      | .error e, _ :: _ =>
        return .error ⟨failed, "prepare " ++ name ++ ": " ++ e, s.prepared⟩
      | .ok (), _ =>
        -- the name is in the list only after its `Prepare` has returned nil
        match ← invoke cfg (Ask.prepare name (planOf plans name)) with
        | .error e => return .error ⟨failed, "prepare " ++ name ++ ": " ++ e, s.prepared⟩
        | .ok () =>
          prepareLoop cfg plans rest { s with
            prepared := s.prepared ++ [name]
            activeNames := s.activeNames ++ [name]
            status := { s.status with preparedDevices := s.status.preparedDevices ++ [name] } }
    else return .error ⟨failed, errUnregistered name, s.prepared⟩

/-- `validation.Plan` against the current topology and time. -/
def revalidate (plan : RoutePlan) : Prog iface (Except String Unit) := do
  let topology ← Ask.topology
  let now ← Ask.now
  return Validation.plan plan topology now

def commitResults (status : ReconcileStatus) :
    List (String × Except String Unit) → ReconcileStatus × List String
  | [] => (status, [])
  | (name, .ok ()) :: rest =>
    commitResults { status with committedDevices := status.committedDevices ++ [name] } rest
  | (name, .error e) :: rest =>
    let (final, errs) :=
      commitResults { status with failedDevices := status.failedDevices ++ [name] } rest
    (final, ("commit " ++ name ++ ": " ++ e) :: errs)

def commitLoop (cfg : Config) (plan : RoutePlan) (plans : Map RoutePlan)
    (prepared : List String) :
    List (List String) → ReconcileStatus → Prog iface (Except Failure ReconcileStatus)
  | [], status => return .ok status
  | batch :: rest, status => do
    -- the topology may have changed since the last batch
    match ← revalidate plan with
    | .error e =>
      return .error ⟨status, "plan became invalid before commit batch: " ++ e, prepared⟩
    | .ok () =>
      -- all commits of a batch are attempted, also after an error
      let results ← readDevices cfg batch fun name =>
        invoke cfg (Ask.commit name plan.id)
      match commitResults status (batch.zip results) with
      | (status, err :: errs) => return .error ⟨status, joinErrors (err :: errs), prepared⟩
      | (status, []) =>
        match ← verify cfg plan.id batch plans with
        | .error e => return .error ⟨status, e, prepared⟩
        | .ok () => commitLoop cfg plan plans prepared rest status

def finalChecks (cfg : Config) (plan : RoutePlan) (plans : Map RoutePlan) (s : Staged) :
    Prog iface (Except Failure ReconcileStatus) := do
  match ← revalidate plan with
  | .error e =>
    return .error ⟨s.status, "plan became invalid before final verification: " ++ e, s.prepared⟩
  | .ok () =>
    -- deferred devices are not verified
    match ← verify cfg plan.id s.activeNames plans with
    | .error e => return .error ⟨s.status, e, s.prepared⟩
    | .ok () =>
      if cfg.verifier then
        match ← invoke cfg (Ask.verify plan) with
        | .error e => return .error ⟨s.status, "data-plane verification: " ++ e, s.prepared⟩
        | .ok () => return .ok s.status
      else return .ok s.status

/-- Health check, prepare, commit and verification, up to the point where the plan
is to be recorded. -/
def transact (cfg : Config) (plan : RoutePlan) (plans : Map RoutePlan) (names : List String)
    (status : ReconcileStatus) : Prog iface (Except Failure Staged) := do
  let health ← readDevices cfg names (precheckDevice cfg)
  match ← prepareLoop cfg plans (names.zip health)
      { status := { status with phase := .preparing } } with
  | .error f => return .error f
  | .ok staged =>
    match ← commitLoop cfg plan plans staged.prepared
        (chunks cfg.batchSize staged.activeNames)
        { staged.status with phase := .committing } with
    | .error f => return .error f
    | .ok status =>
      let staged := { staged with status := { status with phase := .verifying } }
      match ← finalChecks cfg plan plans staged with
      | .error f => return .error f
      | .ok status => return .ok { staged with status := status }

/-- Record the plan, and take that back when the state cannot be written. -/
def record (cfg : Config) (r : Reconciler) (plan : RoutePlan) (s : Staged) :
    Prog iface Outcome := do
  let finishedAt ← Ask.now
  let status := { s.status with phase := .committed, finishedAt := finishedAt }
  let committed : Reconciler := ⟨status, some plan, s.deferred⟩
  -- the plan is in force on the devices already
  match ← persist cfg committed with
  | .ok () => return ⟨committed, none⟩
  | .error e =>
    fail cfg { r with status := status } ("state persistence after device commit: " ++ e) s.prepared

def program (cfg : Config) (r : Reconciler) (plan : RoutePlan) (plans : Map RoutePlan)
    (names : List String) : Prog iface Outcome := do
  match ← transact cfg plan plans names r.status with
  | .error f => fail cfg { r with status := f.status } f.cause f.rollback
  | .ok staged => record cfg r plan staged

/-- The reconciler once `Apply` has set its status. -/
def Reconciler.begin (r : Reconciler) (plan : RoutePlan) (started : Time) : Reconciler :=
  { r with
    status := { phase := .validating, planID := plan.id,
                topologyVersion := plan.topologyVersion, startedAt := started } }

def apply (cfg : Config) (r : Reconciler) (plan : RoutePlan) : Prog iface Outcome := do
  let existingStatus := r.status
  let started ← Ask.now
  let r := r.begin plan started
  let topology ← Ask.topology
  match Validation.plan plan topology started with
  | .error e => fail cfg r e []
  | .ok () =>
    match splitPlan plan (additionalDevices r) with
    | .error e => fail cfg r e []
    | .ok plans =>
      let names := sortStrings plans.keys
      -- a plan that is committed is verified, and applied again if a device has drifted
      if r.committedPlan.map RoutePlan.id = some plan.id then
        match ← verify cfg plan.id names plans with
        | .ok () => return ⟨{ r with status := existingStatus }, none⟩
        | .error _ => program cfg r plan plans names
      else program cfg r plan plans names

end StarFabric.Reconcile

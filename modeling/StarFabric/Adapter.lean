import StarFabric.Model.Plan

/-!
# Devices

`internal/adapter/adapter.go`: the in-memory forwarding device and the registry of devices by name.
The transactions of a device change its *ledger*. Its health and its injected fault are set from
outside and only decide whether a call is refused, and a refused call leaves the ledger as it was.
-/

namespace StarFabric.Adapter

open Go Function

def errUnhealthy : String := "device is unhealthy"
def errNothingPrepared : String := "no matching prepared plan"

inductive FaultMode where
  | none
  | health
  | prepare
  | commit
  | state
  deriving DecidableEq, Repr, Inhabited

/-- A prepared or committed change of one device. A committed one keeps the zero
plan. -/
structure Transaction where
  plan : RoutePlan := RoutePlan.zero
  previous : List RouteOperation
  previousPlanID : String

/-- What the transactions of a device change. -/
structure Ledger where
  routes : List RouteOperation := []
  appliedPlanID : String := ""
  prepared : String → Option Transaction := fun _ => none
  history : String → Option Transaction := fun _ => none

namespace Ledger

def stage (l : Ledger) (plan : RoutePlan) : Ledger :=
  { l with
    prepared := update l.prepared plan.id (some ⟨plan, l.routes, l.appliedPlanID⟩) }

/-- The assignments of `Commit` for the prepared transaction `tx`. -/
def install (l : Ledger) (planID : String) (tx : Transaction) : Ledger where
  history := update l.history planID
    (some { previous := tx.previous, previousPlanID := tx.previousPlanID })
  routes := sortRoutes tx.plan.routes
  appliedPlanID := planID
  prepared := update l.prepared planID none

/-- `Rollback`: undo what is prepared under the plan id, or else what its commit
history records. -/
def rollback (l : Ledger) (planID : String) : Ledger :=
  match l.prepared planID with
  | some tx =>
    { l with routes := tx.previous, prepared := update l.prepared planID none }
  | none =>
    match l.history planID with
    | some tx =>
      { l with
        routes := tx.previous
        history := update l.history planID none
        appliedPlanID := if l.appliedPlanID = planID then tx.previousPlanID
          else l.appliedPlanID }
    | none => l

end Ledger

structure MemoryDevice extends Ledger where
  name : String
  healthy : Bool := true
  fault : FaultMode := .none

namespace MemoryDevice

def new (name : String) : MemoryDevice := { name := name }

def setMood (d : MemoryDevice) (healthy : Bool) (fault : FaultMode) : MemoryDevice :=
  { d with healthy := healthy, fault := fault }

def health (d : MemoryDevice) : Except String Unit :=
  if d.healthy = false ∨ d.fault = .health then .error errUnhealthy else .ok ()

def prepare (d : MemoryDevice) (plan : RoutePlan) : Except String Unit × MemoryDevice :=
  if d.healthy = false then (.error errUnhealthy, d)
  else if d.fault = .prepare then (.error "injected prepare failure", d)
  else if plan.id = "" then (.error "plan id is required", d)
  else if plan.id = d.appliedPlanID then (.ok (), d)
  else if (d.prepared plan.id).isSome then (.ok (), d)
  else match plan.routes.find? fun route => route.device ≠ d.name with
    | some route =>
      (.error ("adapter " ++ quote d.name ++ " received route for " ++ quote route.device), d)
    | none => (.ok (), { d with toLedger := d.toLedger.stage plan })

def commit (d : MemoryDevice) (planID : String) : Except String Unit × MemoryDevice :=
  if d.healthy = false then (.error errUnhealthy, d)
  else if planID = d.appliedPlanID then (.ok (), d)
  else if d.fault = .commit then (.error "injected commit failure", d)
  else match d.prepared planID with
    | none => (.error errNothingPrepared, d)
    | some tx => (.ok (), { d with toLedger := d.toLedger.install planID tx })

def rollback (d : MemoryDevice) (planID : String) : Except String Unit × MemoryDevice :=
  (.ok (), { d with toLedger := d.toLedger.rollback planID })

def state (d : MemoryDevice) : Except String DeviceState :=
  if d.fault = .state then .error "injected state read failure"
  else .ok { device := d.name, healthy := d.healthy, appliedPlanID := d.appliedPlanID,
             routes := d.routes }

/-- What `Prepare` does to the ledger: nothing when it is refused, when the plan
already runs or is already prepared, and one more prepared transaction otherwise. -/
theorem prepare_cases (d : MemoryDevice) (plan : RoutePlan) :
    (d.prepare plan).2 = d ∧
        ((d.prepare plan).1 = .ok () → plan.id = d.appliedPlanID ∨ (d.prepared plan.id).isSome) ∨
      d.prepare plan = (.ok (), { d with toLedger := d.toLedger.stage plan }) ∧
        plan.id ≠ d.appliedPlanID ∧ d.prepared plan.id = none := by
  unfold prepare
  split_ifs with hh hf hid happ hprep
  · exact .inl ⟨rfl, nofun⟩
  · exact .inl ⟨rfl, nofun⟩
  · exact .inl ⟨rfl, nofun⟩
  · exact .inl ⟨rfl, fun _ => .inl happ⟩
  · exact .inl ⟨rfl, fun _ => .inr hprep⟩
  · split
    · exact .inl ⟨rfl, nofun⟩
    · exact .inr ⟨rfl, happ, by simpa using hprep⟩

theorem commit_cases (d : MemoryDevice) (planID : String) :
    (d.commit planID).2 = d ∨
      ∃ tx, d.prepared planID = some tx ∧ planID ≠ d.appliedPlanID ∧
        (d.commit planID).2 = { d with toLedger := d.toLedger.install planID tx } := by
  unfold commit
  split_ifs with hh happ hf
  · exact .inl rfl
  · exact .inl rfl
  · exact .inl rfl
  · split
    · exact .inl rfl
    · next tx htx => exact .inr ⟨tx, htx, happ, rfl⟩

theorem state_ok {d : MemoryDevice} {s : DeviceState} (h : d.state = .ok s) :
    s = { device := d.name, healthy := d.healthy, appliedPlanID := d.appliedPlanID,
          routes := d.routes } := by
  unfold state at h
  split_ifs at h
  exact (Except.ok.inj h).symm

end MemoryDevice

/-! ### The registry -/

/-- `Registry`: devices by their own name. -/
structure Registry where
  get : String → Option MemoryDevice
  named : ∀ name d, get name = some d → d.name = name

namespace Registry

def add (r : Registry) (d : MemoryDevice) : Registry where
  get := update r.get d.name (some d)
  named name d' h := by
    by_cases hn : name = d.name
    · rw [hn, update_self] at h
      rw [hn, Option.some.inj h]
    · rw [update_of_ne hn] at h
      exact r.named name d' h

def new (devices : List MemoryDevice) : Registry :=
  devices.foldl add ⟨fun _ => none, nofun⟩

def ledger (r : Registry) (name : String) : Option Ledger :=
  (r.get name).map MemoryDevice.toLedger

def modify (r : Registry) (name : String) (f : MemoryDevice → MemoryDevice) : Registry :=
  match r.get name with
  | none => r
  | some d => r.add { f d with name := d.name }

theorem ledger_modify {r : Registry} {name : String} {f : MemoryDevice → MemoryDevice}
    {d : MemoryDevice} (hd : r.get name = some d) :
    (r.modify name f).ledger = update r.ledger name (some (f d).toLedger) := by
  have hname := r.named name d hd
  funext other
  unfold ledger modify
  rw [hd]
  change (update r.get d.name _ other).map _ = _
  rw [hname]
  by_cases h : other = name
  · rw [h, update_self, update_self]; rfl
  · rw [update_of_ne h, update_of_ne h]

theorem ledger_new {names : List String} {name : String} {l : Ledger}
    (h : (new (names.map MemoryDevice.new)).ledger name = some l) : name ∈ names ∧ l = {} := by
  -- the loop adds one fresh device after the other
  suffices hloop : ∀ (r : Registry), ((names.map MemoryDevice.new).foldl add r).ledger name =
      some l → name ∈ names ∧ l = {} ∨ r.ledger name = some l from
    (hloop _ h).resolve_right (by simp [ledger])
  clear h
  induction names with
  | nil => exact fun r h => .inr h
  | cons n names ih =>
    intro r h
    rcases ih (r.add (MemoryDevice.new n)) h with ⟨hmem, hl⟩ | hadd
    · exact .inl ⟨List.mem_cons_of_mem n hmem, hl⟩
    · change Option.map _ (update r.get n (some (MemoryDevice.new n)) name) = _ at hadd
      by_cases hn : name = n
      · rw [hn, update_self] at hadd
        exact .inl ⟨hn ▸ List.mem_cons_self, (Option.some.inj hadd).symm⟩
      · rw [update_of_ne hn] at hadd
        exact .inr hadd

end Registry

end StarFabric.Adapter

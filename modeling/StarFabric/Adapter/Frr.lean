import StarFabric.Adapter
import StarFabric.Durable
import StarFabric.Lib.Edits

/-!
# The FRR adapter

`internal/adapter/frr/frr.go`: a device that is programmed by batches of `ip route` and `no ip
route` commands. The router is a set of static routes, each given by prefix, next hop and distance.
A batch that fails may have been executed up to any point (`RunFault`).
-/

namespace StarFabric.Frr

open Go Edits Adapter Function List

/-! ### The router -/

structure Static where
  routePrefix : String
  nextHop : String
  metric : ℤ
  deriving DecidableEq, Repr

def static (route : RouteOperation) : Static := ⟨route.routePrefix, route.nextHop, route.metric⟩

abbrev Configuration := Static → Bool

/-- A configuration command: configure a route, or remove it. Removing a route that is not
configured changes nothing. -/
structure Command where
  route : RouteOperation
  remove : Bool
  deriving DecidableEq, Repr

def Command.edit (c : Command) : Edit Static Bool := ⟨static c.route, !c.remove⟩

/-- A call of the runner that fails: how many of the commands were executed before, and the
error. -/
structure RunFault where
  executed : ℕ
  error : String
  deriving DecidableEq, Repr

def ran (fault : Option RunFault) (batch : List Command) : List Command :=
  match fault with
  | none => batch
  | some f => batch.take f.executed

def execute (config : Configuration) (batch : List Command) : Configuration :=
  run config (batch.map Command.edit)

/-! ### Commands -/

def render (route : RouteOperation) (remove : Bool) : String :=
  let command := match parsePrefix route.routePrefix with
    | .ok (addr, _) => if addr.is6 then "ipv6 route" else "ip route"
    | .error _ => "ip route"
  (if remove then "no " ++ command else command) ++ " " ++ route.routePrefix ++ " " ++
    route.nextHop ++ " " ++ toString route.metric

def routeKey (route : RouteOperation) : String :=
  route.routePrefix ++ "\x00" ++ route.nextHop ++ "\x00" ++ toString route.metric

def routeSet (routes : List RouteOperation) : List String := routes.map routeKey

/-- The commands of `apply`: withdraw what is not desired, configure what is not there. Without an
applied plan every desired route is configured again. -/
def commands (appliedPlanID : String) (current desired : List RouteOperation) : List Command :=
  (current.filter fun route => routeKey route ∉ routeSet desired).map (⟨·, true⟩) ++
    (desired.filter fun route =>
      routeKey route ∉ routeSet current ∨ appliedPlanID = "").map (⟨·, false⟩)

def arguments (batch : List Command) : List String :=
  ["-c", "configure terminal"] ++
    batch.flatMap (fun c => ["-c", render c.route c.remove]) ++ ["-c", "end"]

/-- `Run` with a batch of configuration commands. -/
def runBatch (fault : Option RunFault) (batch : List Command) (config : Configuration) :
    Option String × Configuration :=
  (fault.map RunFault.error, execute config (ran fault batch))

/-! ### The device -/

structure Transaction where
  desired : List RouteOperation := []
  previous : List RouteOperation
  previousPlanID : String
  deriving DecidableEq, Repr

structure Device where
  name : String
  statePath : String := ""
  prepared : String → Option Transaction := fun _ => none
  routes : List RouteOperation := []
  appliedPlanID : String := ""
  history : String → Option Transaction := fun _ => none

structure PersistedState where
  schema : ℤ
  device : String
  routes : List RouteOperation
  appliedPlanID : String
  history : String → Option Transaction

structure World where
  config : Configuration
  file : Option PersistedState := none

/-- The runner's fault in the main batch, the fault of the state file, and the runner's fault in the
batch that undoes the first. -/
structure Env where
  run : Option RunFault := none
  write : Option Durable.WriteFault := none
  undo : Option RunFault := none

namespace Device

def apply (fault : Option RunFault) (d : Device) (current desired : List RouteOperation)
    (config : Configuration) : Option String × Configuration :=
  let batch := commands d.appliedPlanID current desired
  -- four arguments are the frame alone: there is nothing to run
  if (arguments batch).length = 4 then (none, config) else runBatch fault batch config

/-- `persist`: the journal is saved without the desired routes. -/
def persist (fault : Option Durable.WriteFault) (d : Device) (file : Option PersistedState) :
    Option String × Option PersistedState :=
  Durable.writeFile d.statePath
    { schema := 1, device := d.name, routes := d.routes, appliedPlanID := d.appliedPlanID
      history := fun planID => (d.history planID).map fun tx =>
        { previous := tx.previous, previousPlanID := tx.previousPlanID } } fault file

/-- `load`: what is on record, if the device has a state file. `fault` is the error of a file that
cannot be read. -/
def load (fault : Option String) (d : Device) (file : Option PersistedState) :
    Except String Device :=
  if d.statePath = "" then .ok d
  else match fault, file with
    | some err, _ => .error err
    | none, none => .ok d
    | none, some state =>
      if state.schema ≠ 1 ∨ state.device ≠ d.name then
        .error ("invalid state schema/device " ++ toString state.schema ++ "/" ++
          quote state.device)
      else .ok { d with
        routes := state.routes
        appliedPlanID := state.appliedPlanID
        history := fun planID => (state.history planID).map fun tx =>
          { previous := tx.previous, previousPlanID := tx.previousPlanID } }

def newPersistent (fault : Option String) (name statePath : String)
    (file : Option PersistedState) : Except String Device :=
  match load fault { name := name, statePath := statePath } file with
  | .error err => .error ("load FRR adapter state for " ++ name ++ ": " ++ err)
  | .ok d => .ok d

def checkRoute (name : String) (route : RouteOperation) : Except String Unit :=
  if route.device ≠ name then
    .error ("adapter " ++ quote name ++ " received route for " ++ quote route.device)
  else match parsePrefix route.routePrefix with
    | .error e => .error ("prefix " ++ quote route.routePrefix ++ ": " ++ e)
    | .ok _ =>
      match parseAddr route.nextHop with
      | .error e => .error ("next hop " ++ quote route.nextHop ++ ": " ++ e)
      | .ok _ =>
        if route.metric < 1 ∨ 255 < route.metric then
          .error ("route distance " ++ toString route.metric ++ " is outside FRR range 1..255")
        else .ok ()

def prepare (d : Device) (plan : RoutePlan) : Except String Unit × Device :=
  if plan.id = "" then (.error "plan id is required", d)
  else if plan.id = d.appliedPlanID then (.ok (), d)
  else if (d.prepared plan.id).isSome then (.ok (), d)
  else match plan.routes.forM (checkRoute d.name) with
    | .error e => (.error e, d)
    | .ok _ =>
      (.ok (), { d with
        prepared := update d.prepared plan.id
          (some ⟨sortRoutes plan.routes, d.routes, d.appliedPlanID⟩) })

def commit (env : Env) (d : Device) (planID : String) (w : World) :
    Option String × Device × World :=
  if planID = d.appliedPlanID then (none, d, w)
  else match d.prepared planID with
    | none => (some errNothingPrepared, d, w)
    | some tx =>
      match d.apply env.run d.routes tx.desired w.config with
      -- the transaction stays prepared, and the router is left as it is
      | (some err, config) => (some err, d, { w with config := config })
      | (none, config) =>
        -- the journal is written once the router has the routes
        let committed := { d with
          history := update d.history planID
            (some { previous := tx.previous, previousPlanID := tx.previousPlanID })
          routes := tx.desired
          appliedPlanID := planID }
        match committed.persist env.write w.file with
        | (none, file) =>
          (none, { committed with prepared := update d.prepared planID none }, ⟨config, file⟩)
        | (some err, file) =>
          -- the fields are put back, and the router is asked to undo the batch
          let restored := { d with history := update d.history planID none }
          let (undoErr, config) := restored.apply env.undo tx.desired d.routes config
          (some (joinErrors (("persist FRR adapter state: " ++ err) :: undoErr.toList)), restored,
            ⟨config, file⟩)

def rollback (env : Env) (d : Device) (planID : String) (w : World) :
    Option String × Device × World :=
  if (d.prepared planID).isSome then
    -- not committed: the entry is dropped, and the router is not asked
    (none, { d with prepared := update d.prepared planID none }, w)
  else match d.history planID with
    | none => (none, d, w)
    | some tx =>
      match d.apply env.run d.routes tx.previous w.config with
      | (some err, config) => (some err, d, { w with config := config })
      | (none, config) =>
        let restored := { d with
          routes := tx.previous
          appliedPlanID := tx.previousPlanID
          history := update d.history planID none }
        match restored.persist env.write w.file with
        | (none, file) => (none, restored, ⟨config, file⟩)
        | (some err, file) =>
          -- the device keeps the plan, and the router is asked to go forward again
          let (undoErr, config) := d.apply env.undo tx.previous d.routes config
          (some (joinErrors (("persist FRR rollback state: " ++ err) :: undoErr.toList)), d,
            ⟨config, file⟩)

end Device

/-! ### What is executed -/

theorem length_arguments (batch : List Command) :
    (arguments batch).length = 4 + 2 * batch.length := by
  have hpairs : (batch.flatMap fun c => ["-c", render c.route c.remove]).length =
      2 * batch.length := by
    -- two arguments for each command
    induction batch with
    | nil => rfl
    | cons c batch ih =>
      rw [flatMap_cons, length_append, ih, length_cons]
      show 2 + 2 * batch.length = 2 * (batch.length + 1)
      omega
  unfold arguments
  rw [length_append, length_append, hpairs]
  show 2 + 2 * batch.length + 2 = 4 + 2 * batch.length
  omega

theorem commands_eq_nil_of_length {batch : List Command} (h : (arguments batch).length = 4) :
    batch = [] := by
  rw [length_arguments] at h
  exact length_eq_zero_iff.mp (by omega)

theorem ran_of_not_fails {fault : Option RunFault} {batch : List Command}
    (h : ¬ (batch ≠ [] ∧ fault.isSome = true)) : ran fault batch = batch := by
  cases fault with
  | none => rfl
  | some f =>
    have hnil : batch = [] := by
      by_contra hne
      exact h ⟨hne, rfl⟩
    rw [hnil]
    exact take_nil

section Apply

variable {d : Device} {fault : Option RunFault} {current desired : List RouteOperation}
  {config : Configuration}

theorem apply_config : (d.apply fault current desired config).2 =
    execute config (ran fault (commands d.appliedPlanID current desired)) := by
  unfold Device.apply
  dsimp only
  split_ifs with hlength
  · -- nothing to run
    rw [commands_eq_nil_of_length hlength]
    rw [ran_of_not_fails fun h => h.1 rfl]
    rfl
  · rfl

theorem apply_error_iff : (∃ err, (d.apply fault current desired config).1 = some err) ↔
    commands d.appliedPlanID current desired ≠ [] ∧ fault.isSome := by
  unfold Device.apply
  dsimp only
  split_ifs with hlength
  · constructor
    · rintro ⟨err, herr⟩
      cases herr
    · rintro ⟨hne, -⟩
      exact absurd (commands_eq_nil_of_length hlength) hne
  · have hne : commands d.appliedPlanID current desired ≠ [] := by
      intro hnil
      rw [hnil] at hlength
      exact hlength rfl
    cases fault with
    | none => exact ⟨fun ⟨err, herr⟩ => absurd herr nofun, fun h => absurd h.2 nofun⟩
    | some f => exact ⟨fun _ => ⟨hne, rfl⟩, fun _ => ⟨f.error, rfl⟩⟩

end Apply

/-- The commands that a `Commit` executes when it fails: a part of its batch, or the batch and a
part of the one that undoes it. -/
def Device.executed (env : Env) (d : Device) (tx : Transaction) : List Command :=
  let batch := commands d.appliedPlanID d.routes tx.desired
  if batch ≠ [] ∧ env.run.isSome then ran env.run batch
  else batch ++ ran env.undo (commands d.appliedPlanID tx.desired d.routes)

/-- The last of the commands for each route leaves it as it is configured. -/
def Restates (config : Configuration) (batch : List Command) : Prop :=
  ∀ route configured, last route (batch.map Command.edit) = some configured →
    config route = configured

theorem execute_append (config : Configuration) (batch more : List Command) :
    execute config (batch ++ more) = execute (execute config batch) more := by
  unfold execute
  rw [map_append, run_append]

section Commit

variable {env : Env} {d : Device} {planID : String} {tx : Transaction} {w : World}

/-- A `Commit` of a prepared plan that fails keeps the plan prepared, and leaves the router to the
commands it has executed. -/
theorem commit_failed (hprepared : d.prepared planID = some tx)
    (herror : (d.commit env planID w).1 ≠ none) :
    (d.commit env planID w).2.1.prepared = d.prepared ∧
      (d.commit env planID w).2.2.config = execute w.config (d.executed env tx) := by
  unfold Device.commit at herror ⊢
  rw [hprepared] at herror ⊢
  split_ifs at herror ⊢ with happlied
  · exact absurd rfl herror
  dsimp only at herror ⊢
  have hconfig : (d.apply env.run d.routes tx.desired w.config).2 = execute w.config
      (ran env.run (commands d.appliedPlanID d.routes tx.desired)) := apply_config
  have hfails : (∃ err, (d.apply env.run d.routes tx.desired w.config).1 = some err) ↔
      commands d.appliedPlanID d.routes tx.desired ≠ [] ∧ env.run.isSome := apply_error_iff
  unfold Device.executed
  -- from here on only the two facts about `apply` matter
  generalize d.apply env.run d.routes tx.desired w.config = applied at hconfig hfails herror ⊢
  obtain ⟨err, config⟩ := applied
  cases err with
  | some err =>
    -- the batch fails
    rw [if_pos (hfails.mp ⟨err, rfl⟩)]
    exact ⟨rfl, hconfig⟩
  | none =>
    -- the journal cannot be written, and the batch is undone
    have hbatch : ¬ (commands d.appliedPlanID d.routes tx.desired ≠ [] ∧ env.run.isSome = true) :=
      fun h => by
        obtain ⟨err, herr⟩ := hfails.mpr h
        cases herr
    rw [if_neg hbatch]
    have hrun : config = execute w.config (commands d.appliedPlanID d.routes tx.desired) := by
      rw [← ran_of_not_fails hbatch]
      exact hconfig
    generalize Device.persist env.write _ w.file = persisted at herror ⊢
    obtain ⟨err, file⟩ := persisted
    cases err with
    | none => exact absurd rfl herror
    | some err =>
      refine ⟨rfl, ?_⟩
      show (Device.apply env.undo { d with history := update d.history planID none }
        tx.desired d.routes config).2 = _
      rw [apply_config, hrun]
      exact (execute_append _ _ _).symm

end Commit

/-! ### A next hop that changes -/

def toyRoute (nextHop : String) : RouteOperation where
  device := "r1"
  routePrefix := "2001:db8:100::/64"
  nextHop := nextHop
  nextHopNode := ""
  metric := 100
  intentID := "i"
  pathRole := "primary"

/-- The plan `p0` is applied, and a plan with another next hop is prepared. -/
def toyDevice : Device where
  name := "r1"
  statePath := "frr.json"
  prepared planID := if planID = "p1" then
    some ⟨[toyRoute "2001:db8::3"], [toyRoute "2001:db8::2"], "p0"⟩ else none
  routes := [toyRoute "2001:db8::2"]
  appliedPlanID := "p0"

def toyRouter : World where
  config route := route = static (toyRoute "2001:db8::2")

def journalFails : Env where
  write := some ⟨.rename, "read-only file system"⟩

end StarFabric.Frr

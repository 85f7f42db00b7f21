import StarFabric.App.LostUpdates
import StarFabric.Adapter.ReadBack
import StarFabric.Lib.Amid
import Mathlib.Data.List.Dedup

/-!
# Takeover by a standby

Two controllers over one state directory, with FRR devices. A step is a single call of one of the
two. `Reload` of the standby reads the topology, the reconciler and the intents again, but not the
schedules and the files of the adapters. So it is up to date if no schedule and no device has been
worked on since the start (`calm`).
-/

namespace StarFabric.Takeover

open Bool EffectProgram Function Go Nat Option Relation

/-! ### Two controllers -/

inductive Role where
  | leader
  | standby
  deriving DecidableEq, Repr

structure Side where
  canMutate : Option Bool
  memory : App.Memory
  adapters : String → Option Frr.Device := fun _ => none
  applying : Bool := false
  scheduling : Bool := false

structure World where
  files : App.Files := {}
  records : String → Option Frr.PersistedState := fun _ => none
  routers : String → Frr.Configuration := fun _ _ => false
  leader : Side
  standby : Side

/-- The configuration of both controllers: that of the `App`, and where the adapter of a device has
its state file. -/
structure Config extends App.Config where
  adapterStatePath : String → String

/-- All state is kept in the state directory. -/
structure Config.Persistent (cfg : Config) : Prop where
  topology : cfg.topologyStatePath ≠ ""
  intents : cfg.intentsStatePath ≠ ""
  reconcile : cfg.reconcile.statePath ≠ ""
  predictive : cfg.predictiveStatePath ≠ ""
  adapters : ∀ name, cfg.adapterStatePath name ≠ ""

structure Env extends App.Env where
  health : Except String Unit := .ok ()
  frr : Frr.Env := {}
  shows : Frr.StateEnv := { shows := fun _ => .table ∅ }
  adapterFault : String → Option String := fun _ => none

namespace World

def side (w : World) : Role → Side
  | .leader => w.leader
  | .standby => w.standby

def setSide (w : World) (role : Role) (side : Side) : World :=
  match role with
  | .leader => { w with leader := side }
  | .standby => { w with standby := side }

def app (w : World) (role : Role) : App.World where
  canMutate := (w.side role).canMutate
  memory := (w.side role).memory
  files := w.files
  devices := Adapter.Registry.new []
  applying := (w.side role).applying
  scheduling := (w.side role).scheduling

def put (w : World) (role : Role) (v : App.World) : World :=
  { w with files := v.files }.setSide role { w.side role with
    canMutate := v.canMutate
    memory := v.memory
    applying := v.applying
    scheduling := v.scheduling }

/-! ### Adapters -/

def factory (cfg : Config) (e : Env) (w : World) (name : String) : Except String Frr.Device :=
  Frr.Device.newPersistent (e.adapterFault name) name (cfg.adapterStatePath name) (w.records name)

/-- The round of `syncDeviceHealth` for one node. An adapter that cannot be created is logged. -/
def syncNode (cfg : Config) (e : Env) (w : World) (adapters : String → Option Frr.Device)
    (node : Node) : String → Option Frr.Device :=
  match adapters node.id, w.factory cfg e node.id with
  -- a device that is registered keeps its adapter, whatever its file says by now
  | some _, _ => adapters
  | none, .error _ => adapters
  | none, .ok d => update adapters node.id (some d)

/-- `syncDeviceHealth`. Only simulated devices are told about their health. -/
def syncDeviceHealth (cfg : Config) (e : Env) (w : World) (role : Role)
    (snapshot : TopologySnapshot) : World :=
  w.setSide role { w.side role with
    adapters := snapshot.nodes.foldl (w.syncNode cfg e) (w.side role).adapters }

def createAdapters (cfg : Config) (e : Env) (w : World) :
    List Node → (String → Option Frr.Device) → Option (String → Option Frr.Device)
  | [], adapters => some adapters
  | node :: rest, adapters =>
    match w.factory cfg e node.id with
    | .error _ => none
    | .ok d => w.createAdapters cfg e rest (update adapters node.id (some d))

/-- The end of `newWithStore`. A controller whose adapters cannot be created does not come up. -/
def start (cfg : Config) (e : Env) (w : World) (role : Role) (memory : App.Memory) : Option World :=
  (w.createAdapters cfg e memory.topology.snapshot.nodes fun _ => none).map fun adapters =>
    w.setSide role { canMutate := (w.side role).canMutate, memory := memory, adapters := adapters }

/-- An operation of the adapter for a device, on its router and its state file. -/
def onAdapter {α : Type} (w : World) (role : Role) (name : String)
    (f : Frr.Device → Frr.World → Except String α × Frr.Device × Frr.World) :
    Except String α × World :=
  match (w.side role).adapters name with
  | none => (.error (Reconcile.errUnregistered name), w)
  | some d =>
    let (answer, d', v) := f d ⟨w.routers name, w.records name⟩
    (answer, { w with
      records := update w.records name v.file
      routers := update w.routers name v.config }.setSide role { w.side role with
        adapters := update (w.side role).adapters name (some d') })

def apply (cfg : Config) (e : Env) (role : Role) : (c : Reconcile.Call) → World → c.Answer × World
  | .get name, w => (((w.side role).adapters name).isSome, w)
  | .health name, w => (if ((w.side role).adapters name).isSome then e.health
      else .error (Reconcile.errUnregistered name), w)
  | .prepare name plan, w => w.onAdapter role name fun d v =>
      let (answer, d) := d.prepare plan
      (answer, d, v)
  | .commit name planID, w => w.onAdapter role name fun d v =>
      let (err, d, v) := d.commit e.frr planID v
      (Reconcile.writeResult err, d, v)
  | .rollback name planID, w => w.onAdapter role name fun d v =>
      let (err, d, v) := d.rollback e.frr planID v
      (Reconcile.writeResult err, d, v)
  | .state name, w => w.onAdapter role name fun d v =>
      let (state, d, file) := d.state e.shows v.file
      (state, d, { v with file := file })
  | c, w =>
    let (answer, v) := (w.app role).apply cfg.toConfig e.toEnv c
    (answer, w.put role v)

end World

/-- The answer to a call of one of the controllers, if it does not block, and the world after
it. -/
def handle (cfg : Config) (role : Role) (e : Env) :
    (c : App.Call) → World → Option (c.Answer × World)
  | .apply c, w => some (w.apply cfg e role c)
  | .syncDeviceHealth snapshot, w => some ((), w.syncDeviceHealth cfg e role snapshot)
  | .start memory, w => (w.start cfg e role memory).map fun w => ((), w)
  | c, w => (App.handle cfg.toConfig e.toEnv c (w.app role)).map fun r => (r.1, w.put role r.2)

/-! ### Steps -/

def World.elect (w : World) (role : Role) (leader : Bool) : World :=
  w.setSide role { w.side role with canMutate := (w.side role).canMutate.map fun _ => leader }

/-- A call of one of the controllers, out of the calls in `C`, or a change of leadership. -/
inductive Step (cfg : Config) (C : Role → App.Call → Bool) (w : World) : World → Prop
  | call {role : Role} {e : Env} {c : App.Call} {x : c.Answer} {w' : World} (hc : C role c = true)
      (h : handle cfg role e c w = some (x, w')) : Step cfg C w w'
  | elect (role : Role) (leader : Bool) : Step cfg C w (w.elect role leader)

/-- The calls of the reconciler that do not reach for a router and for the state file of an
adapter. -/
def calmOnDevices : Reconcile.Call → Bool
  | .commit _ _ | .rollback _ _ | .state _ => false
  | _ => true

/-- The calls that do not write the schedules and do not program or read a device, and with which
the standby does not change its own schedules. -/
def calm (role : Role) : App.Call → Bool
  | .writeSchedules _ => false
  -- with these a controller assigns its own schedules
  | .unlockSchedules _ | .start _ => role = .leader
  | .apply c => calmOnDevices c
  | _ => true

def idle (_ : Role) : App.Call → Bool
  | .isLeader | .now | .wait _ | .intents | .readIntents | .snapshot | .readTopology | .reconciler
  | .readReconcile | .schedules | .readSchedules => true
  | .apply c => match c with
    | .topology | .now | .done | .order | .get _ | .health _ | .verify _ => true
    | _ => false
  | _ => false

/-! ### What a takeover should give -/

def Agrees (d : Frr.Device) (record : Option Frr.PersistedState) : Prop :=
  ∀ state, record = some state → d.routes = state.routes ∧ d.appliedPlanID = state.appliedPlanID

/-- The standby acts on the schedules and the adapter records of the state directory. -/
structure UpToDate (w : World) : Prop where
  schedules : ∀ state, w.files.schedules = some state → w.standby.memory.schedules = state.schedules
  adapters : ∀ name d, w.standby.adapters name = some d → Agrees d (w.records name)

structure Complete (w : World) : Prop extends UpToDate w where
  topology : ∀ state, w.files.topology = some state →
    w.standby.memory.topology.snapshot = state.snapshot ∧
      w.standby.memory.topology.seenEvents = state.seenEvents ∧
      w.standby.memory.topology.lastSequences = state.lastSequences
  intents : ∀ state, w.files.intents = some state → w.standby.memory.intents = state.intents
  reconciler : ∀ state, w.files.reconcile = some state →
    w.standby.memory.reconciler.committedPlan = state.committedPlan ∧
      w.standby.memory.reconciler.status = state.status ∧
      ∀ name, name ∈ w.standby.memory.reconciler.pendingDevices ↔ name ∈ state.pendingDevices

/-! ### What a calm step leaves alone -/

/-- Nothing has changed in the directory and in the standby that would bring it out of date. -/
structure Kept (w w' : World) : Prop where
  file : w'.files.schedules = w.files.schedules
  records : w'.records = w.records
  memory : w'.standby.memory.schedules = w.standby.memory.schedules
  adapters : ∀ name d', w'.standby.adapters name = some d' → Agrees d' (w.records name) ∨
    ∃ d, w.standby.adapters name = some d ∧ d'.routes = d.routes ∧
      d'.appliedPlanID = d.appliedPlanID

theorem UpToDate.kept {w w' : World} (h : UpToDate w) (hkept : Kept w w') : UpToDate w' where
  schedules := by
    intro state hstate
    rw [hkept.file] at hstate
    rw [hkept.memory]
    exact h.schedules state hstate
  adapters := by
    intro name d' hd'
    rw [hkept.records]
    rcases hkept.adapters name d' hd' with hagrees | ⟨d, hd, hroutes, hplan⟩
    · exact hagrees
    · intro state hstate
      rw [hroutes, hplan]
      exact h.adapters name d hd state hstate

section Frames

variable {cfg : Config} {role : Role} {e : Env} {w w' : World}

theorem kept_of_standby (hfile : w'.files.schedules = w.files.schedules)
    (hrecords : w'.records = w.records)
    (hmemory : w'.standby.memory.schedules = w.standby.memory.schedules)
    (hadapters : w'.standby.adapters = w.standby.adapters) : Kept w w' where
  file := hfile
  records := hrecords
  memory := hmemory
  adapters := by
    intro name d' hd'
    rw [hadapters] at hd'
    exact .inr ⟨d', hd', rfl, rfl⟩

theorem kept_elect (leader : Bool) : Kept w (w.elect role leader) := by
  cases role <;> exact kept_of_standby rfl rfl rfl rfl

theorem kept_put {v : App.World} (hfile : v.files.schedules = w.files.schedules)
    (hmemory : role = .standby → v.memory.schedules = w.standby.memory.schedules) :
    Kept w (w.put role v) := by
  cases role with
  | leader => exact kept_of_standby hfile rfl rfl rfl
  | standby => exact kept_of_standby hfile rfl (hmemory rfl) rfl

/-- The calls that the `App` model answers by itself. -/
def plain : App.Call → Bool
  | .apply _ | .syncDeviceHealth _ | .start _ => false
  | _ => true

variable {c : App.Call}

theorem handle_plain (hc : plain c = true) (w : World) :
    handle cfg role e c w = (App.handle cfg.toConfig e.toEnv c (w.app role)).map
      fun r => (r.1, w.put role r.2) := by
  cases c with
  | apply _ | syncDeviceHealth _ | start _ => cases hc
  | _ => rfl

variable {x : c.Answer}

theorem schedules_of_calm (hplain : plain c = true) (hc : calm role c = true) {v v' : App.World}
    (h : App.handle cfg.toConfig e.toEnv c v = some (x, v')) :
    v'.files.schedules = v.files.schedules ∧
      (role = .standby → v'.memory.schedules = v.memory.schedules) := by
  cases c with
  | apply _ | syncDeviceHealth _ | start _ => cases hplain
  | writeSchedules _ => cases hc
  | unlockSchedules _ =>
    cases h
    refine ⟨rfl, fun hstandby => ?_⟩
    rw [hstandby] at hc
    cases hc
  | reconciler | lockReconciler | schedules | lockSchedules =>
    -- these block while the mutex is taken
    simp only [App.handle] at h
    split_ifs at h
    cases h
    exact ⟨rfl, fun _ => rfl⟩
  | _ =>
    cases h
    exact ⟨rfl, fun _ => rfl⟩

variable {name : String} {d : Frr.Device}

theorem factory_agrees (hpath : cfg.adapterStatePath name ≠ "") (h : w.factory cfg e name = .ok d) :
    Agrees d (w.records name) := by
  -- what is loaded are the routes and the plan of the file
  unfold World.factory Frr.Device.newPersistent Frr.Device.load at h
  rw [if_neg hpath] at h
  intro state hstate
  rw [hstate] at h
  cases hfault : e.adapterFault name with
  | some err =>
    rw [hfault] at h
    cases h
  | none =>
    rw [hfault] at h
    dsimp only at h
    split_ifs at h with hschema
    cases h
    exact ⟨rfl, rfl⟩

theorem agrees_of_created (hdir : cfg.Persistent) {adapters : String → Option Frr.Device}
    {id : String} {created : Frr.Device} (hfactory : w.factory cfg e id = .ok created)
    (h : update adapters id (some created) name = some d) :
    Agrees d (w.records name) ∨ adapters name = some d := by
  by_cases hname : name = id
  · rw [hname, update_self] at h
    cases h
    rw [hname]
    exact .inl (factory_agrees (hdir.adapters id) hfactory)
  · rw [update_of_ne hname] at h
    exact .inr h

theorem sync_adapters (hdir : cfg.Persistent) (nodes : List Node)
    (adapters : String → Option Frr.Device)
    (h : nodes.foldl (w.syncNode cfg e) adapters name = some d) :
    Agrees d (w.records name) ∨ adapters name = some d := by
  induction nodes generalizing adapters with
  | nil => exact .inr h
  | cons node rest ih =>
    rcases ih (w.syncNode cfg e adapters node) h with hagrees | hold
    · exact .inl hagrees
    unfold World.syncNode at hold
    cases hnode : adapters node.id with
    | some other =>
      rw [hnode] at hold
      exact .inr hold
    | none =>
      cases hfactory : w.factory cfg e node.id with
      | error err =>
        rw [hnode, hfactory] at hold
        exact .inr hold
      | ok created =>
        rw [hnode, hfactory] at hold
        exact agrees_of_created hdir hfactory hold

theorem create_adapters (hdir : cfg.Persistent) (nodes : List Node)
    (adapters adapters' : String → Option Frr.Device)
    (hcreate : w.createAdapters cfg e nodes adapters = some adapters')
    (h : adapters' name = some d) :
    Agrees d (w.records name) ∨ adapters name = some d := by
  induction nodes generalizing adapters with
  | nil =>
    cases hcreate
    exact .inr h
  | cons node rest ih =>
    unfold World.createAdapters at hcreate
    cases hfactory : w.factory cfg e node.id with
    | error err =>
      rw [hfactory] at hcreate
      cases hcreate
    | ok created =>
      rw [hfactory] at hcreate
      rcases ih _ hcreate with hagrees | hold
      · exact .inl hagrees
      · exact agrees_of_created hdir hfactory hold

theorem prepare_record (d : Frr.Device) (plan : RoutePlan) :
    (d.prepare plan).2.routes = d.routes ∧ (d.prepare plan).2.appliedPlanID = d.appliedPlanID := by
  unfold Frr.Device.prepare
  split_ifs
  · exact ⟨rfl, rfl⟩
  · exact ⟨rfl, rfl⟩
  · exact ⟨rfl, rfl⟩
  · cases plan.routes.forM (Frr.Device.checkRoute d.name) <;> exact ⟨rfl, rfl⟩

theorem kept_onAdapter {α : Type}
    {f : Frr.Device → Frr.World → Except String α × Frr.Device × Frr.World}
    (hfile : ∀ d v, (f d v).2.2.file = v.file)
    (hrecord : ∀ d v, (f d v).2.1.routes = d.routes ∧ (f d v).2.1.appliedPlanID = d.appliedPlanID) :
    Kept w (w.onAdapter role name f).2 := by
  unfold World.onAdapter
  cases hd : (w.side role).adapters name with
  | none => exact kept_of_standby rfl rfl rfl rfl
  | some d =>
    have hkept := hfile d ⟨w.routers name, w.records name⟩
    have hsame := hrecord d ⟨w.routers name, w.records name⟩
    dsimp only
    generalize f d ⟨w.routers name, w.records name⟩ = result at hkept hsame ⊢
    obtain ⟨answer, d', v⟩ := result
    -- the file of the device is written back as it was
    have hrecords : update w.records name v.file = w.records := by
      rw [show v.file = w.records name from hkept]
      exact update_eq_self name w.records
    cases role with
    | leader => exact kept_of_standby rfl hrecords rfl rfl
    | standby =>
      refine ⟨rfl, hrecords, rfl, fun other d₂ hd₂ => .inr ?_⟩
      change update w.standby.adapters name (some d') other = some d₂ at hd₂
      by_cases hother : other = name
      · rw [hother, update_self] at hd₂
        cases hd₂
        rw [hother]
        exact ⟨d, hd, hsame⟩
      · rw [update_of_ne hother] at hd₂
        exact ⟨d₂, hd₂, rfl, rfl⟩

theorem kept_apply {call : Reconcile.Call} (hc : calmOnDevices call = true) :
    Kept w (w.apply cfg e role call).2 := by
  cases call with
  | commit _ _ | rollback _ _ | state _ => cases hc
  | prepare name plan => exact kept_onAdapter (fun _ _ => rfl) fun d _ => prepare_record d plan
  | get _ | health _ => exact kept_of_standby rfl rfl rfl rfl
  | _ =>
    refine kept_put rfl fun hstandby => ?_
    rw [hstandby]
    rfl

theorem kept_of_calm (hdir : cfg.Persistent) (hc : calm role c = true)
    (h : handle cfg role e c w = some (x, w')) : Kept w w' := by
  cases hplain : plain c with
  | true =>
    rw [handle_plain hplain] at h
    obtain ⟨⟨y, v⟩, hv, hput⟩ := map_eq_some_iff.mp h
    obtain ⟨-, rfl⟩ := Prod.mk.inj hput
    obtain ⟨hfile, hmemory⟩ := schedules_of_calm hplain hc hv
    refine kept_put hfile fun hstandby => (hmemory hstandby).trans ?_
    rw [hstandby]
    rfl
  | false =>
    cases c with
    | apply call =>
      rw [← show (w.apply cfg e role call).2 = w' from congrArg Prod.snd (Option.some.inj h)]
      exact kept_apply hc
    -- the call may create adapters, and these read their files
    | syncDeviceHealth snapshot =>
      cases h
      cases role with
      | leader => exact kept_of_standby rfl rfl rfl rfl
      | standby =>
        refine ⟨rfl, rfl, rfl, fun name d' hd' => ?_⟩
        rcases sync_adapters hdir snapshot.nodes w.standby.adapters hd' with hagrees | hold
        · exact .inl hagrees
        · exact .inr ⟨d', hold, rfl, rfl⟩
    | start memory =>
      cases role with
      | leader =>
        obtain ⟨v, hv, hput⟩ := map_eq_some_iff.mp h
        obtain ⟨-, rfl⟩ := Prod.mk.inj hput
        obtain ⟨adapters, -, rfl⟩ := map_eq_some_iff.mp hv
        exact kept_of_standby rfl rfl rfl rfl
      | standby => cases hc
    | _ => cases hplain

theorem Step.kept (hdir : cfg.Persistent) (h : Step cfg calm w w') : Kept w w' := by
  cases h with
  | call hc h => exact kept_of_calm hdir hc h
  | elect role leader => exact kept_elect leader

end Frames

/-! ### Starting the standby -/

def answers (cfg : Config) (role : Role) : Env → Responder App.iface World := handle cfg role

variable {α : Type} {e : App.Env} {file : Option α}

theorem read_ok {state : α} (h : e.read file = .ok state) : file = some state := by
  unfold App.Env.read at h
  split at h
  · cases h
  · cases h
  · cases h
    rfl

theorem read_notExist (h : e.read file = .error .notExist) : file = none := by
  unfold App.Env.read at h
  split at h
  · cases h
  · rfl
  · cases h

section Load

variable {cfg : Config} {w w' : World}

theorem directory_of_steps (hdir : cfg.Persistent) (h : ReflTransGen (Step cfg calm) w w') :
    w'.files.schedules = w.files.schedules ∧ w'.records = w.records := by
  refine Prog.preserved_of_steps (J := fun v => v.files.schedules = w.files.schedules ∧
    v.records = w.records) (fun v v' hstep hv => ?_) h ⟨rfl, rfl⟩
  have hkept := hstep.kept hdir
  exact ⟨hkept.file.trans hv.1, hkept.records.trans hv.2⟩

theorem UpToDate.steps (hdir : cfg.Persistent) (h : UpToDate w)
    (hsteps : ReflTransGen (Step cfg calm) w w') : UpToDate w' :=
  Prog.preserved_of_steps (fun _ _ hstep hv => hv.kept (hstep.kept hdir)) hsteps h

theorem load_schedules (hdir : cfg.Persistent) {schedules : Map App.PredictiveSchedule}
    (h : (App.loadPredictiveSchedules cfg.toConfig).Amid (answers cfg .standby) (Step cfg calm) w
      (.ok schedules) w') {state : App.PersistedSchedules}
    (hstate : w'.files.schedules = some state) : schedules = state.schedules := by
  unfold App.loadPredictiveSchedules at h
  rw [if_neg hdir.predictive] at h
  obtain ⟨answer, v, hask, hrest⟩ := Prog.amid_bind.mp h
  -- the file is read in the world `u`, and stays as it was there
  obtain ⟨u, e, u', -, hread, hu'⟩ := Prog.amid_ask.mp hask
  obtain ⟨hanswer, rfl⟩ := Prod.mk.inj (Option.some.inj hread)
  have hfile : v.files.schedules = u.files.schedules := (directory_of_steps hdir hu').1
  cases answer with
  | error err =>
    cases err with
    | notExist =>
      -- there was no file, and there is none now
      have hnone : u.files.schedules = none := read_notExist hanswer
      obtain ⟨-, hsteps⟩ := hrest
      rw [(directory_of_steps hdir hsteps).1, hfile, hnone] at hstate
      cases hstate
    | failed text => cases hrest.1
  | ok found =>
    have hfound : u.files.schedules = some found := read_ok hanswer
    dsimp only at hrest
    split_ifs at hrest with hschema
    · cases hrest.1
    · cases hbad : found.schedules.entries.find? fun s => !App.checkSchedule s.1 s.2 with
      | some bad =>
        rw [hbad] at hrest
        cases hrest.1
      | none =>
        rw [hbad] at hrest
        obtain ⟨hsame, hsteps⟩ := hrest
        cases hsame
        rw [(directory_of_steps hdir hsteps).1, hfile] at hstate
        cases hfound.symm.trans hstate
        rfl

theorem upToDate_of_load (hdir : cfg.Persistent) {fallback : TopologySnapshot}
    {intents : List RouteIntent}
    (h : (App.load cfg.toConfig fallback intents).Amid (answers cfg .standby) (Step cfg calm) w
      none w') : UpToDate w' := by
  -- the stages of `newWithStore` before the schedules play no part here
  obtain ⟨opened, w₁, -, h⟩ := Prog.amid_bind.mp h
  cases opened with
  | error err => cases h.1
  | ok store =>
  obtain ⟨loaded, w₂, -, h⟩ := Prog.amid_bind.mp h
  cases loaded with
  | error err => cases h.1
  | ok loaded =>
  dsimp only at h
  cases hvalid : App.validateIntents loaded with
  | error err =>
    rw [hvalid] at h
    cases h.1
  | ok _ =>
  rw [hvalid] at h
  obtain ⟨reconciler, w₃, -, h⟩ := Prog.amid_bind.mp h
  cases reconciler with
  | error err => cases h.1
  | ok reconciler =>
  obtain ⟨schedules, w₄, hschedules, h⟩ := Prog.amid_bind.mp h
  cases schedules with
  | error err => cases h.1
  | ok schedules =>
  -- the last call: the memory is assigned, and the adapters are created
  obtain ⟨_, w₅, hask, -, hlast⟩ := Prog.amid_bind.mp h
  obtain ⟨u, e, u', hu, hstart, hu'⟩ := Prog.amid_ask.mp hask
  obtain ⟨v, hv, hput⟩ := map_eq_some_iff.mp hstart
  obtain ⟨-, rfl⟩ := Prod.mk.inj hput
  obtain ⟨adapters, hadapters, rfl⟩ := map_eq_some_iff.mp hv
  refine UpToDate.steps hdir ⟨fun state hstate => ?_, fun name d hd => ?_⟩ (hu'.trans hlast)
  · change u.files.schedules = some state at hstate
    rw [(directory_of_steps hdir hu).1] at hstate
    exact load_schedules hdir hschedules hstate
  · -- there were no adapters before
    exact (create_adapters hdir _ _ _ hadapters hd).resolve_right nofun

end Load

/-! ### Reloading -/

structure Still (w w' : World) : Prop where
  files : w'.files = w.files
  memory : w'.standby.memory = w.standby.memory

theorem calm_of_idle {role : Role} {c : App.Call} (h : idle role c = true) :
    calm role c = true := by
  cases c with
  | apply call =>
    cases call with
    | commit _ _ | rollback _ _ | state _ => exact absurd h false_ne_true
    | _ => rfl
  | writeSchedules _ | unlockSchedules _ | start _ => exact absurd h false_ne_true
  | _ => rfl

section Idle

variable {cfg : Config} {role : Role} {e : Env} {w w' : World}

theorem still_put : Still w (w.put role (w.app role)) := by
  cases role <;> exact ⟨rfl, rfl⟩

theorem still_of_idle {c : App.Call} {x : c.Answer} (hc : idle role c = true)
    (h : handle cfg role e c w = some (x, w')) : Still w w' := by
  cases c with
  | apply call =>
    rw [← show (w.apply cfg e role call).2 = w' from congrArg Prod.snd (Option.some.inj h)]
    cases call with
    | get _ | health _ => exact ⟨rfl, rfl⟩
    | topology | now | done | order | verify _ => cases role <;> exact ⟨rfl, rfl⟩
    | _ => exact absurd hc false_ne_true
  | reconciler | schedules =>
    -- these block while the mutex is taken
    obtain ⟨⟨y, v⟩, hv, hput⟩ := map_eq_some_iff.mp h
    obtain ⟨-, rfl⟩ := Prod.mk.inj hput
    simp only [App.handle] at hv
    split_ifs at hv
    cases hv
    exact still_put
  | isLeader | now | wait _ | intents | readIntents | snapshot | readTopology | readReconcile
  | readSchedules =>
    cases h
    exact still_put
  | _ => exact absurd hc false_ne_true

theorem Step.still (h : Step cfg idle w w') : Still w w' := by
  cases h with
  | call hc h => exact still_of_idle hc h
  | elect role leader => cases role <;> exact ⟨rfl, rfl⟩

theorem still_of_steps (h : ReflTransGen (Step cfg idle) w w') : Still w w' := by
  refine Prog.preserved_of_steps (J := Still w) (fun v v' hstep hv => ?_) h ⟨rfl, rfl⟩
  have hstill := hstep.still
  exact ⟨hstill.files.trans hv.files, hstill.memory.trans hv.memory⟩

end Idle

def TopologyAgrees (w : World) : Prop :=
  ∀ state, w.files.topology = some state →
    w.standby.memory.topology.snapshot = state.snapshot ∧
      w.standby.memory.topology.seenEvents = state.seenEvents ∧
      w.standby.memory.topology.lastSequences = state.lastSequences

def ReconcilerAgrees (w : World) : Prop :=
  ∀ state, w.files.reconcile = some state →
    w.standby.memory.reconciler = Reconcile.load (some state)

def IntentsAgree (w : World) : Prop :=
  ∀ state, w.files.intents = some state → w.standby.memory.intents = state.intents

/-! ### The parts of `Reload` do not get into each other's way -/

def stage : App.Call → ℕ
  | .readTopology | .setTopology _ => 1
  | .lockReconciler | .readReconcile | .unlockReconciler _ => 2
  | .readIntents | .setIntents _ => 3
  | .snapshot | .syncDeviceHealth _ => 4
  | _ => 0

section Stages

variable {cfg : Config} {n : ℕ}

theorem always_reloadTopology (hn : n ≤ 1) :
    (App.reloadTopology cfg.toConfig).Always (fun c => n ≤ stage c) fun _ => True := by
  have hload : (App.loadTopology cfg.topologyStatePath).Always (fun c => n ≤ stage c)
      fun _ => True := by
    refine (Prog.always_ask (I := App.iface) (c := .readTopology) hn).bind fun answer _ => ?_
    cases answer with
    | error err => trivial
    | ok state =>
      dsimp only
      cases state.snapshot.validate <;> trivial
  unfold App.reloadTopology
  split_ifs
  · trivial
  · refine hload.bind fun result _ => ?_
    cases result with
    | error err => cases err <;> trivial
    | ok store => exact ⟨hn, fun _ => trivial⟩

theorem always_reloadReconciler (hn : n ≤ 2) :
    (App.reloadReconciler cfg.toConfig).Always (fun c => n ≤ stage c) fun _ => True := by
  refine ⟨hn, fun r => ?_⟩
  split_ifs
  · exact ⟨hn, fun _ => trivial⟩
  · refine ⟨hn, fun answer => ?_⟩
    cases answer with
    | ok state => exact ⟨hn, fun _ => trivial⟩
    | error err => cases err <;> exact ⟨hn, fun _ => trivial⟩

theorem always_reloadIntents (hn : n ≤ 3) :
    (App.reloadIntents cfg.toConfig).Always (fun c => n ≤ stage c) fun _ => True := by
  have hread : App.readIntents.Always (fun c => n ≤ stage c) fun _ => True := by
    refine (Prog.always_ask (I := App.iface) (c := .readIntents) hn).bind fun answer _ => ?_
    cases answer with
    | error err => trivial
    | ok state =>
      dsimp only
      split_ifs
      · trivial
      · cases App.checkIntents "persisted intent " [] state.intents <;> trivial
  unfold App.reloadIntents
  split_ifs
  · trivial
  · refine hread.bind fun result _ => ?_
    cases result with
    | error err => cases err <;> trivial
    | ok intents => exact ⟨hn, fun _ => trivial⟩

def finishReload : Prog App.iface (Option String) := do
  App.Ask.syncDeviceHealth (← App.Ask.snapshot)
  return none

theorem always_finishReload (hn : n ≤ 4) :
    finishReload.Always (fun c => n ≤ stage c) fun _ => True :=
  ⟨hn, fun _ => ⟨hn, fun _ => trivial⟩⟩

variable {c : App.Call}

theorem calm_of_stage (h : 1 ≤ stage c) : calm .standby c = true := by
  cases c with
  | writeSchedules _ | unlockSchedules _ | start _ | apply _ =>
    exact absurd h (not_succ_le_zero 0)
  | _ => rfl

variable {e : Env} {w w' : World}

/-- What the calls from a stage on leave alone. -/
structure Frame (n : ℕ) (w w' : World) : Prop where
  files : w'.files = w.files
  topology : 2 ≤ n → w'.standby.memory.topology = w.standby.memory.topology
  reconciler : 3 ≤ n → w'.standby.memory.reconciler = w.standby.memory.reconciler
  intents : 4 ≤ n → w'.standby.memory.intents = w.standby.memory.intents

theorem Frame.trans {m : ℕ} {v : World} (h : Frame n w v) (h' : Frame m v w') (hnm : n ≤ m) :
    Frame n w w' :=
  ⟨h'.files.trans h.files, fun hn => (h'.topology (hn.trans hnm)).trans (h.topology hn),
    fun hn => (h'.reconciler (hn.trans hnm)).trans (h.reconciler hn),
    fun hn => (h'.intents (hn.trans hnm)).trans (h.intents hn)⟩

theorem frame_of_stage {x : c.Answer} (hc : 1 ≤ stage c)
    (h : handle cfg .standby e c w = some (x, w')) : Frame (stage c) w w' := by
  cases c with
  | readTopology | readReconcile | readIntents | snapshot | syncDeviceHealth _ =>
    cases h
    exact ⟨rfl, fun _ => rfl, fun _ => rfl, fun _ => rfl⟩
  | setTopology _ =>
    cases h
    exact ⟨rfl, fun hlt => absurd hlt (not_succ_le_self 1), fun _ => rfl, fun _ => rfl⟩
  | lockReconciler =>
    rw [handle_plain rfl] at h
    obtain ⟨⟨y, v⟩, hv, hput⟩ := map_eq_some_iff.mp h
    obtain ⟨-, rfl⟩ := Prod.mk.inj hput
    simp only [App.handle] at hv
    split_ifs at hv
    cases hv
    exact ⟨rfl, fun _ => rfl, fun _ => rfl, fun _ => rfl⟩
  | unlockReconciler _ =>
    cases h
    exact ⟨rfl, fun _ => rfl, fun hlt => absurd hlt (not_succ_le_self 2), fun _ => rfl⟩
  | setIntents _ =>
    cases h
    exact ⟨rfl, fun _ => rfl, fun _ => rfl, fun hlt => absurd hlt (not_succ_le_self 3)⟩
  | _ => exact absurd hc (not_succ_le_zero 0)

variable {α : Type} {p : Prog App.iface α} {a : α}

theorem frame_of_calls (hn : 1 ≤ n) (hcalls : p.Always (fun c => n ≤ stage c) fun _ => True)
    (hp : p.Amid (answers cfg .standby) (Step cfg idle) w a w') : Frame n w w' := by
  refine hp.always hcalls (fun e c v x v' hc hx hv => ?_) (fun v v' hstep hv => ?_)
    ⟨rfl, fun _ => rfl, fun _ => rfl, fun _ => rfl⟩
  · exact hv.trans (frame_of_stage (hn.trans hc) hx) hc
  · have hmemory := hstep.still.memory
    exact hv.trans ⟨hstep.still.files, fun _ => congrArg _ hmemory, fun _ => congrArg _ hmemory,
      fun _ => congrArg _ hmemory⟩ le_rfl

theorem UpToDate.reload (hdir : cfg.Persistent) (h : UpToDate w)
    (hcalls : p.Always (fun c => 1 ≤ stage c) fun _ => True)
    (hp : p.Amid (answers cfg .standby) (Step cfg idle) w a w') : UpToDate w' := by
  refine hp.always hcalls (fun e c v x v' hc hx hv => ?_) (fun v v' hstep hv => ?_) h
  · exact hv.kept (kept_of_calm hdir (calm_of_stage hc) hx)
  · cases hstep with
    | call hc hx => exact hv.kept (kept_of_calm hdir (calm_of_idle hc) hx)
    | elect role leader => exact hv.kept (kept_elect leader)

end Stages

section Reload

variable {cfg : Config} {w w' : World}

theorem Still.trans {v : World} (h : Still w v) (h' : Still v w') : Still w w' :=
  ⟨h'.files.trans h.files, h'.memory.trans h.memory⟩

variable {c : App.Call}

theorem asked_still {x : c.Answer}
    (h : (Prog.ask (I := App.iface) c).Amid (answers cfg .standby) (Step cfg idle) w x w') :
    ∃ u e u', Still w u ∧ handle cfg .standby e c u = some (x, u') ∧ Still u' w' := by
  obtain ⟨u, e, u', hu, hx, hu'⟩ := Prog.amid_ask.mp h
  exact ⟨u, e, u', still_of_steps hu, hx, still_of_steps hu'⟩

theorem last_still
    (h : (Prog.ask (I := App.iface) c >>= fun _ => pure none).Amid (answers cfg .standby)
      (Step cfg idle) w (none : Option String) w') :
    ∃ u e x u', Still w u ∧ handle cfg .standby e c u = some (x, u') ∧ Still u' w' := by
  obtain ⟨x, v, hask, -, hlast⟩ := Prog.amid_bind.mp h
  obtain ⟨u, e, u', hu, hx, hu'⟩ := asked_still hask
  exact ⟨u, e, x, u', hu, hx, hu'.trans (still_of_steps hlast)⟩

theorem topology_of_reload (hdir : cfg.Persistent)
    (h : (App.reloadTopology cfg.toConfig).Amid (answers cfg .standby) (Step cfg idle) w none w') :
    TopologyAgrees w' := by
  intro state hstate
  rw [(frame_of_calls le_rfl (always_reloadTopology le_rfl) h).files] at hstate
  unfold App.reloadTopology at h
  rw [if_neg hdir.topology] at h
  obtain ⟨result, v, hload, hrest⟩ := Prog.amid_bind.mp h
  obtain ⟨answer, v₁, hask, hload⟩ := Prog.amid_bind.mp hload
  obtain ⟨u, e, u', hu, hread, -⟩ := asked_still hask
  obtain ⟨hanswer, rfl⟩ := Prod.mk.inj (Option.some.inj hread)
  rw [← hu.files] at hstate
  cases answer with
  | error err =>
    obtain ⟨rfl, -⟩ := hload
    cases err with
    | notExist => cases hstate.symm.trans (read_notExist hanswer)
    | failed text => cases hrest.1
  | ok found =>
    cases hstate.symm.trans (read_ok hanswer)
    dsimp only at hload
    cases hvalid : state.snapshot.validate with
    | error text =>
      rw [hvalid] at hload
      obtain ⟨rfl, -⟩ := hload
      cases hrest.1
    | ok _ =>
      rw [hvalid] at hload
      obtain ⟨rfl, -⟩ := hload
      -- the store is assigned what was read
      obtain ⟨t, e', x, t', -, hset, hend⟩ := last_still hrest
      obtain ⟨-, rfl⟩ := Prod.mk.inj (Option.some.inj hset)
      rw [hend.memory]
      exact ⟨rfl, rfl, rfl⟩

theorem reconciler_of_reload (hdir : cfg.Persistent)
    (h : (App.reloadReconciler cfg.toConfig).Amid (answers cfg .standby) (Step cfg idle) w none
      w') : ReconcilerAgrees w' := by
  intro state hstate
  rw [(frame_of_calls le_rfl (always_reloadReconciler (by decide)) h).files] at hstate
  obtain ⟨r, v, hlock, h⟩ := Prog.amid_bind.mp h
  rw [if_neg hdir.reconcile] at h
  obtain ⟨answer, v₁, hask, hrest⟩ := Prog.amid_bind.mp h
  obtain ⟨u, e, u', hu, hread, -⟩ := asked_still hask
  obtain ⟨hanswer, rfl⟩ := Prod.mk.inj (Option.some.inj hread)
  rw [← (frame_of_calls le_rfl (Prog.always_ask (c := App.Call.lockReconciler) (by decide))
    hlock).files, ← hu.files] at hstate
  cases answer with
  | ok found =>
    cases hstate.symm.trans (read_ok hanswer)
    -- giving the mutex back assigns the reconciler
    obtain ⟨t, e', x, t', -, hset, hend⟩ := last_still hrest
    obtain ⟨-, rfl⟩ := Prod.mk.inj (Option.some.inj hset)
    rw [hend.memory]
    rfl
  | error err =>
    cases err with
    | notExist => cases hstate.symm.trans (read_notExist hanswer)
    | failed text =>
      obtain ⟨_, v₂, -, hlast⟩ := Prog.amid_bind.mp hrest
      cases hlast.1

theorem intents_of_reload (hdir : cfg.Persistent)
    (h : (App.reloadIntents cfg.toConfig).Amid (answers cfg .standby) (Step cfg idle) w none w') :
    IntentsAgree w' := by
  intro state hstate
  rw [(frame_of_calls le_rfl (always_reloadIntents (by decide)) h).files] at hstate
  unfold App.reloadIntents at h
  rw [if_neg hdir.intents] at h
  obtain ⟨result, v, hload, hrest⟩ := Prog.amid_bind.mp h
  obtain ⟨answer, v₁, hask, hload⟩ := Prog.amid_bind.mp hload
  obtain ⟨u, e, u', hu, hread, -⟩ := asked_still hask
  obtain ⟨hanswer, rfl⟩ := Prod.mk.inj (Option.some.inj hread)
  rw [← hu.files] at hstate
  cases answer with
  | error err =>
    obtain ⟨rfl, -⟩ := hload
    cases err with
    | notExist => cases hstate.symm.trans (read_notExist hanswer)
    | failed text => cases hrest.1
  | ok found =>
    cases hstate.symm.trans (read_ok hanswer)
    dsimp only at hload
    split_ifs at hload with hschema
    · obtain ⟨rfl, -⟩ := hload
      cases hrest.1
    · cases hcheck : App.checkIntents "persisted intent " [] state.intents with
      | error text =>
        rw [hcheck] at hload
        obtain ⟨rfl, -⟩ := hload
        cases hrest.1
      | ok _ =>
        rw [hcheck] at hload
        obtain ⟨rfl, -⟩ := hload
        obtain ⟨t, e', x, t', -, hset, hend⟩ := last_still hrest
        obtain ⟨-, rfl⟩ := Prod.mk.inj (Option.some.inj hset)
        rw [hend.memory]
        rfl

end Reload

/-! ### The result -/

/-- **A takeover is complete.** The standby is started, both controllers go on, and then the standby
runs `Reload`, which returns nil. If since the start only calm calls were made, and while `Reload`
runs the others only read, then the standby acts on what is in the state directory. -/
theorem takeover_complete {cfg : Config} (hdir : cfg.Persistent) {fallback : TopologySnapshot}
    {intents : List RouteIntent} {w₀ w₁ w₂ w₃ : World}
    (hload : (App.load cfg.toConfig fallback intents).Amid (answers cfg .standby) (Step cfg calm)
      w₀ none w₁)
    (hrun : ReflTransGen (Step cfg calm) w₁ w₂)
    (hreload : (App.reload cfg.toConfig).Amid (answers cfg .standby) (Step cfg idle) w₂ none w₃) :
    Complete w₃ := by
  -- the schedules and the adapters are up to date from the start on
  have hup : UpToDate w₂ := (upToDate_of_load hdir hload).steps hdir hrun
  unfold App.reload at hreload
  obtain ⟨err, v₁, htopology, h⟩ := Prog.amid_bind.mp hreload
  cases err with
  | some err => cases h.1
  | none =>
  obtain ⟨err, v₂, hreconciler, h⟩ := Prog.amid_bind.mp h
  cases err with
  | some err => cases h.1
  | none =>
  obtain ⟨err, v₃, hintents, h⟩ := Prog.amid_bind.mp h
  cases err with
  | some err => cases h.1
  | none =>
  have hfinish : finishReload.Amid (answers cfg .standby) (Step cfg idle) v₃ none w₃ := h
  -- each part is brought in line with its file, and stays so in the parts after it
  have hlast : Frame 4 v₃ w₃ := frame_of_calls (by decide) (always_finishReload le_rfl) hfinish
  have hlater : Frame 3 v₂ w₃ :=
    (frame_of_calls (by decide) (always_reloadIntents le_rfl) hintents).trans hlast (by decide)
  have hrest : Frame 2 v₁ w₃ := (frame_of_calls (by decide) (always_reloadReconciler le_rfl)
    hreconciler).trans hlater (by decide)
  have hup' : UpToDate w₃ :=
    (((hup.reload hdir (always_reloadTopology (by decide)) htopology).reload hdir
      (always_reloadReconciler (by decide)) hreconciler).reload hdir
        (always_reloadIntents (by decide)) hintents).reload hdir
          (always_finishReload (by decide)) hfinish
  refine ⟨hup', fun state hstate => ?_, fun state hstate => ?_, fun state hstate => ?_⟩
  · rw [hrest.files] at hstate
    rw [hrest.topology le_rfl]
    exact topology_of_reload hdir htopology state hstate
  · rw [hlast.files] at hstate
    rw [hlast.intents le_rfl]
    exact intents_of_reload hdir hintents state hstate
  · rw [hlater.files] at hstate
    rw [hlater.reconciler le_rfl, reconciler_of_reload hdir hreconciler state hstate]
    exact ⟨rfl, rfl, fun name => List.mem_dedup⟩

/-! ### Two controllers for two nodes -/

def duoPair : Config := { App.duoConfig with adapterStatePath := fun _ => "frr.json" }

theorem persistent_duoPair : duoPair.Persistent where
  topology := by decide
  intents := by decide
  reconcile := by decide
  predictive := by decide
  adapters := fun _ => (by decide : "frr.json" ≠ "")

def duoSides : World where
  leader := { canMutate := some true, memory := App.duoWorld.memory }
  standby := { canMutate := some false, memory := App.duoWorld.memory }

def duoLoad : Prog App.iface (Option String) :=
  App.load duoPair.toConfig App.duoTopology App.duoWorld.memory.intents

def runs {α : Type} (role : Role) (p : Prog App.iface α) (w : World) : Option (α × World) :=
  p.respond (answers duoPair role { now := 10 }) w

/-- The leader accepts an event after the standby was started. The standby has it after the
takeover. -/
theorem event_taken_over : ∃ w₁ w₂ w₃, runs .standby duoLoad duoSides = some (none, w₁) ∧
    Step duoPair calm w₁ w₂ ∧
    runs .standby (App.reload duoPair.toConfig) w₂ = some (none, w₃) ∧
    w₃.standby.memory.topology.snapshot.version = 2 ∧ Complete w₃ := by
  have hruns : ∃ loaded ∈ runs .standby duoLoad duoSides, loaded.1 = none ∧
      ∃ accepted ∈ handle duoPair .leader { now := 10 } (.applyEvent App.abDown) loaded.2,
      ∃ reloaded ∈ runs .standby (App.reload duoPair.toConfig) accepted.2, reloaded.1 = none ∧
        reloaded.2.standby.memory.topology.snapshot.version = 2 := by decide +kernel
  obtain ⟨⟨_, w₁⟩, hload, rfl, ⟨reply, w₂⟩, haccept, ⟨_, w₃⟩, hreload, rfl, hversion⟩ := hruns
  have hstep : Step duoPair calm w₁ w₂ := .call (c := .applyEvent App.abDown) rfl haccept
  refine ⟨w₁, w₂, w₃, hload, hstep, hreload, hversion, ?_⟩
  exact takeover_complete persistent_duoPair (Prog.amid_of_respond hload) (.single hstep)
    (Prog.amid_of_respond hreload)

/-- The leader makes a schedule after the standby was started. After the takeover the standby does
not know of it. -/
theorem schedule_not_taken_over : ∃ w₁ schedule w₂ w₃,
    runs .standby duoLoad duoSides = some (none, w₁) ∧
    runs .leader (App.createPredictiveSchedule duoPair.toConfig App.newContact 50 0) w₁ =
      some (.ok schedule, w₂) ∧
    runs .standby (App.reload duoPair.toConfig) w₂ = some (none, w₃) ∧ ¬ Complete w₃ := by
  have hruns : ∃ loaded ∈ runs .standby duoLoad duoSides, loaded.1 = none ∧
      ∃ created ∈ runs .leader (App.createPredictiveSchedule duoPair.toConfig App.newContact 50 0)
        loaded.2, created.1.toOption.isSome = true ∧
      ∃ reloaded ∈ runs .standby (App.reload duoPair.toConfig) created.2, reloaded.1 = none ∧
      ∃ state ∈ reloaded.2.files.schedules,
        reloaded.2.standby.memory.schedules.keys.length ≠ state.schedules.keys.length := by
    decide +kernel
  obtain ⟨⟨_, w₁⟩, hload, rfl, ⟨created, w₂⟩, hcreate, hcreated, ⟨_, w₃⟩, hreload, rfl, state,
    hstate, hlength⟩ := hruns
  obtain ⟨schedule, rfl⟩ := ExceptFold.exists_ok_of_isSome hcreated
  refine ⟨w₁, schedule, w₂, w₃, hload, hcreate, hreload, fun hcomplete => hlength ?_⟩
  rw [hcomplete.schedules state hstate]

end StarFabric.Takeover

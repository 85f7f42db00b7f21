import StarFabric.Reconcile.Reconciler
import StarFabric.Durable

/-!
# The world of the reconciler

At every call the adversary `env` sets the health and the fault of the device that is called, and
gives everything else from outside. A `System` moves by running `apply` to the end, or by a process
stop: the devices keep everything but the prepared transactions, and the controller starts again
from the state file.
-/

namespace StarFabric.Reconcile

open Go EffectProgram Adapter Durable Function Option

structure Env where
  healthy : Bool := true
  fault : FaultMode := .none
  topology : TopologySnapshot
  now : Time
  done : Option String := none
  rank : String → ℕ := fun _ => 0
  verify : Except String Unit := .ok ()
  writeFault : Option WriteFault := none

structure World where
  tick : ℕ := 0
  devices : Registry
  file : Option PersistentState := none

def World.ledger (w : World) : String → Option Ledger := w.devices.ledger

/-- Run an operation of one device under the mood the adversary gives it. -/
def World.onDevice {α : Type} (w : World) (e : Env) (name : String)
    (f : MemoryDevice → Except String α × MemoryDevice) : Except String α × World :=
  match w.devices.get name with
  | none => (.error (errUnregistered name), w)
  | some d =>
    ((f (d.setMood e.healthy e.fault)).1,
      { w with devices := w.devices.modify name fun d => (f (d.setMood e.healthy e.fault)).2 })

def writeResult : Option String → Except String Unit
  | none => .ok ()
  | some e => .error e

def handle (cfg : Config) (env : ℕ → Env) : Handler iface World := fun c w =>
  let e := env w.tick
  let w : World := { w with tick := w.tick + 1 }
  match c with
  | .topology => (e.topology, w)
  | .now => (e.now, w)
  | .done => (e.done, w)
  | .order => (e.rank, w)
  | .get name => ((w.devices.get name).isSome, w)
  | .health name => w.onDevice e name fun d => (d.health, d)
  | .prepare name plan => w.onDevice e name fun d => d.prepare plan
  | .commit name planID => w.onDevice e name fun d => d.commit planID
  | .rollback name planID => w.onDevice e name fun d => d.rollback planID
  | .state name => w.onDevice e name fun d => (d.state, d)
  | .verify _ => (e.verify, w)
  | .write state =>
    let result := writeFile cfg.statePath state e.writeFault w.file
    (writeResult result.1, { w with file := result.2 })

/-! ### What a call does to the ledgers -/

section

variable {cfg : Config} {env : ℕ → Env} {w : World} {name : String}

variable {α : Type} {e : Env} {f : MemoryDevice → Except String α × MemoryDevice}

theorem onDevice_none (h : w.ledger name = none) :
    w.onDevice e name f = (.error (errUnregistered name), w) := by
  unfold World.ledger Registry.ledger at h
  rw [map_eq_none_iff] at h
  unfold World.onDevice
  rw [h]

variable {l : Ledger}

theorem onDevice_mood (h : w.ledger name = some l) :
    ∃ d : MemoryDevice, (d.toLedger = l ∧ d.name = name ∧ d.healthy = e.healthy ∧
        d.fault = e.fault) ∧ (w.onDevice e name f).1 = (f d).1 ∧
      (w.onDevice e name f).2.ledger = update w.ledger name (some (f d).2.toLedger) := by
  obtain ⟨d, hd, rfl⟩ := map_eq_some_iff.mp h
  refine ⟨d.setMood e.healthy e.fault, ⟨rfl, w.devices.named name d hd, rfl, rfl⟩, ?_, ?_⟩
  · unfold World.onDevice; rw [hd]
  · unfold World.onDevice
    rw [hd]
    exact Registry.ledger_modify hd

theorem onDevice_some (h : w.ledger name = some l) :
    ∃ d : MemoryDevice, d.toLedger = l ∧ (w.onDevice e name f).1 = (f d).1 ∧
      (w.onDevice e name f).2.ledger = update w.ledger name (some (f d).2.toLedger) := by
  obtain ⟨d, ⟨hl, -⟩, hres, hledger⟩ := onDevice_mood h
  exact ⟨d, hl, hres, hledger⟩

theorem onDevice_read (f : MemoryDevice → Except String α) :
    (w.onDevice e name fun d => (f d, d)).2.ledger = w.ledger := by
  cases h : w.ledger name with
  | none => rw [onDevice_none h]
  | some l =>
    obtain ⟨d, hd, -, hledger⟩ := onDevice_some (e := e) (f := fun d => (f d, d)) h
    rw [hledger]
    change update w.ledger name (some d.toLedger) = w.ledger
    rw [hd, ← h, update_eq_self]

def Call.Quiet : Call → Prop
  | .prepare _ _ | .commit _ _ | .rollback _ _ => False
  | _ => True

theorem handle_quiet {c : Call} (hc : c.Quiet) : (handle cfg env c w).2.ledger = w.ledger := by
  cases c with
  | health name => exact onDevice_read MemoryDevice.health
  | state name => exact onDevice_read MemoryDevice.state
  | prepare _ _ => exact hc.elim
  | commit _ _ => exact hc.elim
  | rollback _ _ => exact hc.elim
  | _ => rfl

theorem handle_get : (handle cfg env (.get name) w).1 = (w.ledger name).isSome := by
  change (w.devices.get name).isSome = ((w.devices.get name).map _).isSome
  rw [isSome_map]

theorem handle_state {s : DeviceState} (h : (handle cfg env (.state name) w).1 = .ok s) :
    ∃ l, w.ledger name = some l ∧ s.appliedPlanID = l.appliedPlanID ∧ s.routes = l.routes := by
  cases hl : w.ledger name with
  | none =>
    have herr := onDevice_none (w := { w with tick := w.tick + 1 }) (e := env w.tick)
      (f := fun d : MemoryDevice => (d.state, d)) hl
    exact absurd ((congrArg Prod.fst herr).symm.trans h) (by simp)
  | some l =>
    obtain ⟨d, rfl, hres, -⟩ := onDevice_some (w := { w with tick := w.tick + 1 })
      (e := env w.tick) (f := fun d : MemoryDevice => (d.state, d)) hl
    have hs := MemoryDevice.state_ok (hres.symm.trans h)
    exact ⟨d.toLedger, rfl, by rw [hs], by rw [hs]⟩

theorem handle_prepare (cfg : Config) (env : ℕ → Env) (plan : RoutePlan)
    (h : w.ledger name = some l) :
    (handle cfg env (.prepare name plan) w).2.ledger = w.ledger ∧
        ((handle cfg env (.prepare name plan) w).1 = .ok () → plan.id = l.appliedPlanID ∨
          (l.prepared plan.id).isSome) ∨
      (handle cfg env (.prepare name plan) w).1 = .ok () ∧
        (handle cfg env (.prepare name plan) w).2.ledger =
          update w.ledger name (some (l.stage plan)) ∧
        plan.id ≠ l.appliedPlanID ∧ l.prepared plan.id = none := by
  obtain ⟨d, rfl, hres, hledger⟩ := onDevice_some (w := { w with tick := w.tick + 1 })
    (e := env w.tick) (f := fun d : MemoryDevice => d.prepare plan) h
  obtain ⟨hsame, hok⟩ | ⟨hstage, hne, hprep⟩ := d.prepare_cases plan
  · refine .inl ⟨?_, fun h => hok (hres.symm.trans h)⟩
    refine hledger.trans ?_
    rw [hsame]
    exact (congrArg _ h.symm).trans (update_eq_self name w.ledger)
  · refine .inr ⟨hres.trans (by rw [hstage]), hledger.trans ?_, hne, hprep⟩
    rw [hstage]
    rfl

theorem handle_commit (cfg : Config) (env : ℕ → Env) (planID : String)
    (h : w.ledger name = some l) :
    (handle cfg env (.commit name planID) w).2.ledger = w.ledger ∨
      ∃ tx, l.prepared planID = some tx ∧ planID ≠ l.appliedPlanID ∧
        (handle cfg env (.commit name planID) w).2.ledger =
          update w.ledger name (some (l.install planID tx)) := by
  obtain ⟨d, rfl, -, hledger⟩ := onDevice_some (w := { w with tick := w.tick + 1 })
    (e := env w.tick) (f := fun d : MemoryDevice => d.commit planID) h
  obtain hsame | ⟨tx, htx, hne, hinstall⟩ := d.commit_cases planID
  · refine .inl (hledger.trans ?_)
    rw [hsame]
    exact (congrArg _ h.symm).trans (update_eq_self name w.ledger)
  · refine .inr ⟨tx, htx, hne, hledger.trans ?_⟩
    rw [hinstall]
    rfl

theorem handle_rollback {planID : String} (h : w.ledger name = some l) :
    (handle cfg env (.rollback name planID) w).2.ledger =
      update w.ledger name (some (l.rollback planID)) := by
  obtain ⟨d, rfl, -, hledger⟩ := onDevice_some (w := { w with tick := w.tick + 1 })
    (e := env w.tick) (f := fun d : MemoryDevice => d.rollback planID) h
  exact hledger

end

/-! ### Systems -/

structure System where
  reconciler : Reconciler
  world : World

namespace System

def outcome (cfg : Config) (env : ℕ → Env) (s : System) (plan : RoutePlan) : Outcome × World :=
  Prog.run (handle cfg env) (Reconcile.apply cfg s.reconciler plan) s.world

def apply (cfg : Config) (env : ℕ → Env) (s : System) (plan : RoutePlan) : System :=
  ⟨(s.outcome cfg env plan).1.reconciler, (s.outcome cfg env plan).2⟩

def stopped (cfg : Config) (env : ℕ → Env) (s : System) (plan : RoutePlan) (calls : ℕ) : World :=
  (Prog.runFor (handle cfg env) calls (Reconcile.apply cfg s.reconciler plan) s.world).2

end System

/-- `load`, and the fresh reconciler when there is no state file. -/
def load (file : Option PersistentState) : Reconciler :=
  match file with
  | none => {}
  | some state => ⟨state.status, state.committedPlan, state.pendingDevices.dedup⟩

def restartDevices (r : Registry) : Registry where
  get name := (r.get name).map fun d => { d with prepared := fun _ => none }
  named name d h := by
    obtain ⟨d', hd, rfl⟩ := map_eq_some_iff.mp h
    exact r.named name d' hd

def reload (w : World) : System :=
  ⟨load w.file, { w with devices := restartDevices w.devices }⟩

theorem ledger_reload {w : World} {name : String} {l : Ledger}
    (h : (reload w).world.ledger name = some l) :
    ∃ l', w.ledger name = some l' ∧ l = { l' with prepared := fun _ => none } := by
  obtain ⟨d, hd, rfl⟩ := map_eq_some_iff.mp h
  obtain ⟨d', hd', rfl⟩ := map_eq_some_iff.mp hd
  exact ⟨d'.toLedger, map_eq_some_iff.mpr ⟨d', hd', rfl⟩, rfl⟩

end StarFabric.Reconcile

import StarFabric.App.Controller

/-!
# Interleavings of a controller

The threads of one controller over what they share: the memory of the `App`, the state files, the
devices and the flag of the elector, which changes by itself. `machine` answers the calls of
`App.Call`, with choices from outside (`Env`). A turn of a thread that finds a mutex taken is not
possible.
-/

namespace StarFabric.App

open Go EffectProgram Adapter Durable

structure Files where
  topology : Option Topology.PersistentState := none
  intents : Option PersistedIntents := none
  reconcile : Option Reconcile.PersistentState := none
  schedules : Option PersistedSchedules := none

/-- What the threads of a controller share. `canMutate` is the answer of the elector, and
missing when the controller runs without one. -/
structure World where
  canMutate : Option Bool
  memory : Memory
  files : Files := {}
  devices : Registry
  applying : Bool := false
  scheduling : Bool := false

def World.isLeader (w : World) : Bool := w.canMutate.getD true

structure Env where
  now : Time
  reached : Bool := true
  readFault : Option String := none
  writeFault : Option WriteFault := none
  healthy : Bool := true
  fault : FaultMode := .none
  done : Option String := none
  rank : String → ℕ := fun _ => 0
  verify : Except String Unit := .ok ()

/-- The part of the choice that the calls of the reconciler see. They read the topology from the
store. -/
def Env.reconcile (e : Env) (w : World) : Reconcile.Env where
  healthy := e.healthy
  fault := e.fault
  topology := w.memory.topology.snapshot
  now := e.now
  done := e.done
  rank := e.rank
  verify := e.verify
  writeFault := e.writeFault

def Env.read {α : Type} (e : Env) (file : Option α) : Except ReadError α :=
  match e.readFault, file with
  | some text, _ => .error (.failed text)
  | none, none => .error .notExist
  | none, some state => .ok state

/-! ### The shared parts -/

namespace World

def store (w : World) : Topology.PersistedStore := ⟨w.memory.topology, w.files.topology⟩

def setStore (w : World) (p : Topology.PersistedStore) : World :=
  { w with
    memory := { w.memory with topology := p.store }
    files := { w.files with topology := p.file } }

/-- The round of `syncDeviceHealth` for one node. Without a device factory all devices are
simulated ones. -/
def syncNode (devices : Registry) (node : Node) : Registry :=
  match devices.get node.id with
  | some _ => devices.modify node.id fun d => { d with healthy := node.enabled }
  | none => devices.add { MemoryDevice.new node.id with healthy := node.enabled }

def syncDeviceHealth (w : World) (snapshot : TopologySnapshot) : World :=
  { w with devices := snapshot.nodes.foldl syncNode w.devices }

def apply (cfg : Config) (e : Env) (w : World) (c : Reconcile.Call) : c.Answer × World :=
  let (x, v) := Reconcile.handle cfg.reconcile (fun _ => e.reconcile w) c
    { devices := w.devices, file := w.files.reconcile }
  (x, { w with devices := v.devices, files := { w.files with reconcile := v.file } })

end World

def handle (cfg : Config) (e : Env) : (c : Call) → World → Option (c.Answer × World)
  | .isLeader, w => some (w.isLeader, w)
  | .now, w => some (e.now, w)
  -- an activation that is due does not wait, and otherwise the context may be done first
  | .wait activateAt, w => some (decide (activateAt ≤ e.now) || e.reached, w)
  | .intents, w => some (w.memory.intents, w)
  | .setIntents intents, w => some ((), { w with memory := { w.memory with intents := intents } })
  | .readIntents, w => some (e.read w.files.intents, w)
  | .writeIntents state, w =>
    let (err, file) := writeFile cfg.intentsStatePath state e.writeFault w.files.intents
    some (err, { w with files := { w.files with intents := file } })
  | .snapshot, w => some (w.memory.topology.snapshot, w)
  | .applyEvent event, w =>
    -- the store holds its mutex over the change and the write, so the call is one step
    let (p, reply) := Topology.apply ⟨e.now, e.writeFault⟩ w.store event
    some (reply, w.setStore p)
  | .applyEvents events, w =>
    let (p, reply) := Topology.applyBatch ⟨e.now, e.writeFault⟩ w.store events
    some (reply, w.setStore p)
  | .replace snapshot, w =>
    let (p, err) := Topology.replace ⟨e.now, e.writeFault⟩ w.store snapshot
    some (err, w.setStore p)
  | .readTopology, w => some (e.read w.files.topology, w)
  | .setTopology state, w =>
    some ((), { w with memory := { w.memory with topology := { w.memory.topology with
      snapshot := state.snapshot
      seenEvents := state.seenEvents
      lastSequences := state.lastSequences } } })
  | .syncDeviceHealth snapshot, w => some ((), w.syncDeviceHealth snapshot)
  -- `Apply` holds the mutex of the reconciler from its beginning to its end
  | .reconciler, w => if w.applying then none else some (w.memory.reconciler, w)
  | .lockReconciler, w =>
    if w.applying then none else some (w.memory.reconciler, { w with applying := true })
  | .unlockReconciler r, w =>
    some ((), { w with applying := false, memory := { w.memory with reconciler := r } })
  | .apply c, w => some (w.apply cfg e c)
  | .readReconcile, w => some (e.read w.files.reconcile, w)
  -- the mutex of the schedules
  | .schedules, w => if w.scheduling then none else some (w.memory.schedules, w)
  | .lockSchedules, w =>
    if w.scheduling then none else some (w.memory.schedules, { w with scheduling := true })
  | .unlockSchedules schedules, w =>
    some ((), { w with scheduling := false, memory := { w.memory with schedules := schedules } })
  | .readSchedules, w => some (e.read w.files.schedules, w)
  | .writeSchedules state, w =>
    let (err, file) := writeFile cfg.predictiveStatePath state e.writeFault w.files.schedules
    some (err, { w with files := { w.files with schedules := file } })
  -- a new controller creates a device for each node of its topology
  | .start memory, w => some ((), { w with memory := memory }.syncDeviceHealth
      memory.topology.snapshot)

/-- The elector changes its answer. A controller without an elector stays the leader. -/
def World.elect (leader : Bool) (w : World) : World :=
  { w with canMutate := w.canMutate.map fun _ => leader }

def machine (cfg : Config) : Machine iface Job Env Bool World where
  program := Job.program cfg
  handle := handle cfg
  drift := World.elect

end StarFabric.App

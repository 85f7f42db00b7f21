import StarFabric.App.World

/-!
# Leadership

A call on the `App` asks `IsLeader` once, when it begins, and leadership may be gone by the time it
acts (`lossMoves`). What holds in every interleaving is that the check comes before the mutation
(`program_keeps`), except for `ApplyPlan` outside of a worker, the loading at start-up, and the
record that an activation was refused (`RecordsRefusal`).
-/

namespace StarFabric.App

open Go EffectProgram Adapter List

/-- The calls that go to a device transaction or to a shared state file. -/
def Call.mutates : Call → Bool
  | writeIntents _ | applyEvent _ | applyEvents _ | replace _ | writeSchedules _ => true
  | apply (.prepare _ _) | apply (.commit _ _) | apply (.rollback _ _) | apply (.write _) => true
  | _ => false

def Job.ChecksLeader : Job → Prop
  | load _ _ | applyPlan _ => False
  | _ => True

/-- The worker of a schedule writes that it failed because this controller is not the leader. -/
def RecordsRefusal : Job → Call → Prop
  | .runPredictiveSchedule id, .writeSchedules state =>
    ∃ schedule, state.schedules.lookup id = some schedule ∧ schedule.state = .failed ∧
      schedule.error = errNotLeader
  | _, _ => False

def foundLeader : (c : Call) → c.Answer → Prop
  | .isLeader, answer => answer = true
  | _, _ => False

/-- The gate of a job: its mutations come after `IsLeader` said yes. -/
def leaderGate (job : Job) : Gate iface where
  opens := foundLeader
  guards c := job.ChecksLeader ∧ c.mutates = true ∧ ¬ RecordsRefusal job c

/-! ### The programs keep the gate -/

section

variable {job : Job} {α : Type} {Q : α → Prop → Prop} {opened : Prop}

theorem not_guards {c : Call} (hc : c.mutates = false) : ¬ (leaderGate job).guards c := by
  rintro ⟨-, hmutates, -⟩
  cases hc.symm.trans hmutates

theorem keeps_quiet {c : Call} {f : c.Answer → Prog iface α} (hc : c.mutates = false)
    (hf : ∀ x, (f x).Keeps (leaderGate job) Q (opened ∨ foundLeader c x)) :
    Prog.Keeps (leaderGate job) Q (Prog.ask (I := iface) c >>= f) opened :=
  Prog.keeps_ask (not_guards hc) hf

theorem keeps_ifLeader {yes no : Prog iface α}
    (hno : no.Keeps (leaderGate job) Q (opened ∨ False)) (hQ : ∀ a, Q a True) :
    Prog.Keeps (leaderGate job) Q (do if ← Ask.isLeader then yes else no) opened := by
  refine keeps_quiet (c := .isLeader) rfl fun answer => ?_
  cases answer with
  | true => exact Prog.keeps_of_opened (.inr rfl) hQ
  | false =>
    have hclosed : foundLeader .isLeader false = False := by simp [foundLeader]
    rw [hclosed]
    exact hno

theorem keeps_once {p : Prog iface α}
    (hp : p.Keeps (leaderGate job) (fun _ _ => True) opened) :
    (once p).Keeps (leaderGate job) (fun _ _ => True) opened :=
  hp.bind fun _ _ _ => trivial

variable {cfg : Config}

theorem setIntents_keeps {intents : List RouteIntent} :
    (setIntents cfg intents).Keeps (leaderGate job) (fun _ _ => True) opened :=
  keeps_ifLeader trivial fun _ => trivial

theorem reconcile_keeps : (reconcile cfg).Keeps (leaderGate job) (fun _ _ => True) opened :=
  keeps_ifLeader (keeps_quiet (c := .reconciler) rfl fun _ => trivial) fun _ => trivial

theorem withStore_keeps {store : Prog iface Topology.Reply} :
    (withStore store).Keeps (leaderGate job) (fun _ _ => True) opened :=
  keeps_ifLeader (keeps_quiet (c := .snapshot) rfl fun _ => trivial) fun _ => trivial

theorem createPredictiveSchedule_keeps {windows : List Predictive.ContactWindow}
    {horizon lead : Duration} :
    (createPredictiveSchedule cfg windows horizon lead).Keeps (leaderGate job)
      (fun _ _ => True) opened :=
  keeps_ifLeader trivial fun _ => trivial

variable {id : String}

theorem activatePrediction_keeps {activation : Predictive.Activation} :
    (activatePrediction cfg id activation).Keeps (leaderGate job)
      (fun err opened => opened ∨ err = some errNotLeader) opened :=
  keeps_ifLeader (.inr rfl) fun _ => .inl trivial

theorem persistPredictiveSchedules_keeps {schedules : Map PredictiveSchedule}
    (h : RecordsRefusal job (.writeSchedules ⟨1, schedules⟩)) :
    (persistPredictiveSchedules cfg schedules).Keeps (leaderGate job) (fun _ _ => True) opened := by
  unfold persistPredictiveSchedules
  split_ifs with hpath
  · trivial
  · exact ⟨fun hguard => absurd h hguard.2.2, fun _ => trivial⟩

theorem finishPredictiveActivation_keeps {version : UInt64} {err : Option String}
    (h : opened ∨ err = some errNotLeader) :
    (finishPredictiveActivation cfg id version err).Keeps
      (leaderGate (.runPredictiveSchedule id)) (fun _ _ => True) opened := by
  rcases h with hopened | rfl
  · exact Prog.keeps_of_opened hopened fun _ => trivial
  -- the lease was not held: what goes to the file is a schedule that failed for that reason
  refine keeps_quiet (c := .lockSchedules) rfl fun schedules => ?_
  cases hlookup : schedules.lookup id with
  | none => exact ⟨fun hguard => absurd hguard (not_guards rfl), fun _ => trivial⟩
  | some schedule =>
    refine keeps_quiet (c := .now) rfl fun now => ?_
    refine Prog.Keeps.bind (persistPredictiveSchedules_keeps ?_) fun _ _ _ => ?_
    · exact ⟨_, AList.lookup_insert schedules, rfl, rfl⟩
    · exact ⟨fun hguard => absurd hguard (not_guards rfl), fun _ => trivial⟩

theorem runPredictiveSchedule_keeps :
    (runPredictiveSchedule cfg id).Keeps (leaderGate (.runPredictiveSchedule id))
      (fun _ _ => True) opened := by
  refine keeps_quiet (c := .schedules) rfl fun schedules => ?_
  cases hnext : (schedules.lookup id).bind PredictiveSchedule.next with
  | none => trivial
  | some activation =>
    refine keeps_quiet (c := .wait activation.activateAt) rfl fun reached => ?_
    cases reached with
    | false => trivial
    | true =>
      -- the activation asks for leadership, and the writes after it rest on its answer
      refine activatePrediction_keeps.bind fun err o herr => ?_
      cases err with
      | none => exact (finishPredictiveActivation_keeps herr).bind fun _ _ _ => trivial
      | some e => exact (finishPredictiveActivation_keeps herr).bind fun _ _ _ => trivial

theorem loadTopology_keeps {path : String} :
    (loadTopology path).Keeps (leaderGate job) (fun _ _ => True) opened := by
  refine keeps_quiet (c := .readTopology) rfl fun answer => ?_
  cases answer with
  | error e => trivial
  | ok state => dsimp only; split <;> trivial

theorem readIntents_keeps : readIntents.Keeps (leaderGate job) (fun _ _ => True) opened := by
  refine keeps_quiet (c := .readIntents) rfl fun answer => ?_
  cases answer with
  | error e => trivial
  | ok state =>
    dsimp only
    split_ifs
    · trivial
    · split <;> trivial

theorem reloadTopology_keeps :
    (reloadTopology cfg).Keeps (leaderGate job) (fun _ _ => True) opened := by
  unfold reloadTopology
  split_ifs
  · trivial
  · refine loadTopology_keeps.bind fun store _ _ => ?_
    split
    · trivial
    · trivial
    · exact keeps_quiet (c := .setTopology _) rfl fun _ => trivial

theorem reloadReconciler_keeps :
    (reloadReconciler cfg).Keeps (leaderGate job) (fun _ _ => True) opened := by
  refine keeps_quiet (c := .lockReconciler) rfl fun r => ?_
  split_ifs
  · exact keeps_quiet (c := .unlockReconciler r) rfl fun _ => trivial
  · refine keeps_quiet (c := .readReconcile) rfl fun state => ?_
    split
    · exact keeps_quiet (c := .unlockReconciler _) rfl fun _ => trivial
    · exact keeps_quiet (c := .unlockReconciler r) rfl fun _ => trivial
    · exact keeps_quiet (c := .unlockReconciler r) rfl fun _ => trivial

theorem reloadIntents_keeps :
    (reloadIntents cfg).Keeps (leaderGate job) (fun _ _ => True) opened := by
  unfold reloadIntents
  split_ifs
  · trivial
  · refine readIntents_keeps.bind fun intents _ _ => ?_
    split
    · trivial
    · trivial
    · exact keeps_quiet (c := .setIntents _) rfl fun _ => trivial

theorem reload_keeps : (reload cfg).Keeps (leaderGate job) (fun _ _ => True) opened := by
  refine reloadTopology_keeps.bind fun err _ _ => ?_
  split
  · trivial
  refine reloadReconciler_keeps.bind fun err _ _ => ?_
  split
  · trivial
  refine reloadIntents_keeps.bind fun err _ _ => ?_
  split
  · trivial
  refine keeps_quiet (c := .snapshot) rfl fun snapshot => ?_
  exact keeps_quiet (c := .syncDeviceHealth snapshot) rfl fun _ => trivial

theorem program_keeps (cfg : Config) (job : Job) :
    (job.program cfg).Keeps (leaderGate job) (fun _ _ => True) False := by
  cases job with
  | load fallback intents =>
    exact Prog.keeps_of_unguarded (fun _ h => h.1) fun _ _ => trivial
  | applyPlan plan => exact Prog.keeps_of_unguarded (fun _ h => h.1) fun _ _ => trivial
  | reload => exact keeps_once reload_keeps
  | setIntents intents => exact keeps_once setIntents_keeps
  | reconcile => exact keeps_once reconcile_keeps
  | applyEvent event => exact keeps_once withStore_keeps
  | applyEvents events => exact keeps_once withStore_keeps
  | createPredictiveSchedule windows horizon lead =>
    exact keeps_once createPredictiveSchedule_keeps
  | runPredictiveSchedule id => exact runPredictiveSchedule_keeps

end

/-! ### Every interleaving -/

theorem leader_of_foundLeader {cfg : Config} {e : Env} {c : Call} {answer : c.Answer} {w w' : World}
    (h : handle cfg e c w = some (answer, w')) (hfound : foundLeader c answer) :
    c = .isLeader ∧ w.isLeader = true := by
  cases c with
  | isLeader =>
    refine ⟨rfl, ?_⟩
    have hanswer : w.isLeader = answer := congrArg Prod.fst (Option.some.inj h)
    exact hanswer.trans hfound
  | _ => exact hfound.elim

/-- **A mutation follows a check of leadership.** In every interleaving of calls, workers and
changes of leadership: a device transaction or a write to a shared state file is made in a call
(for a worker, in a pass of its loop) that before has asked `IsLeader` while that was true. Left
out are the two jobs that do not ask, and the record of a refused activation. -/
theorem mutation_follows_check {cfg : Config} {w : World} {moves : List (Move Job Env Bool)}
    {s : Machine.State iface Job World} (hrun : (machine cfg).run moves { world := w } = some s)
    {before after : List (Entry iface Job World)} {e : Entry iface Job World}
    (hlog : s.log = before ++ e :: after) (hjob : e.job.ChecksLeader)
    (hmutates : Call.mutates e.call = true) (hrecord : ¬ RecordsRefusal e.job e.call) :
    ∃ check ∈ before, check.thread = e.thread ∧ check.pass = e.pass ∧
      check.call = Call.isLeader ∧ check.world.isLeader = true := by
  obtain ⟨check, hmem, hthread, hpass, hopens⟩ :=
    Machine.opened_of_guarded (G := leaderGate) (program_keeps cfg) hrun hlog
      ⟨hjob, hmutates, hrecord⟩
  -- the entry says what was asked; that it was answered yes is read off the world it was asked in
  obtain ⟨env, w', hanswer⟩ := Machine.answered_of_run hrun check (hlog ▸ mem_append_left _ hmem)
  obtain ⟨hcall, hleader⟩ := leader_of_foundLeader hanswer hopens
  exact ⟨check, hmem, hthread, hpass, hcall, hleader⟩

/-! ### A controller that loses the lease -/

def duoTopology : TopologySnapshot where
  version := 1
  nodes := [{ id := "a", loopback := "10.0.0.1", enabled := true },
    { id := "b", loopback := "10.0.0.2", enabled := true }]
  links := [{ id := "ab", source := "a", target := "b", adminUp := true, operationalUp := true
              latencyUS := 5, capacityBPS := 100 }]

def duoConfig : Config where
  topologyStatePath := "topology.json"
  intentsStatePath := "intents.json"
  predictiveStatePath := "schedules.json"
  reconcile := Reconcile.Config.new 0 4 "reconcile.json" false
  digest := fun _ => "1"
  format := fun _ => ""

def duoWorld : World where
  canMutate := some true
  memory :=
    { topology := ⟨duoTopology, fun _ => none, fun _ => none, "topology.json"⟩
      intents := [{ id := "i", source := "a", destination := "b",
                    destinationPrefix := "10.1.0.0/16" }]
      reconciler := {}
      schedules := ∅ }
  devices := Registry.new (["a", "b"].map MemoryDevice.new)

def turns (n thread : ℕ) : List (Move Job Env Bool) := List.replicate n (.turn thread { now := 10 })

/-- `Reconcile` finds itself the leader, the lease is lost, and `Reconcile` runs to its end. -/
def lossMoves : List (Move Job Env Bool) :=
  [.spawn .reconcile, .turn 0 { now := 10 }, .drift false] ++
    List.replicate 29 (.turn 0 { now := 10 })

/-- A commit that `Reconcile` makes without being the leader. -/
def lateCommit (e : Entry iface Job World) : Bool :=
  match e.job, (e.call : Call) with
  | .reconcile, .apply (.commit _ _) => !e.world.isLeader
  | _, _ => false

theorem lateCommit_cases {e : Entry iface Job World} (h : lateCommit e = true) :
    e.job = .reconcile ∧ (∃ name planID, e.call = Call.apply (.commit name planID)) ∧
      e.world.isLeader = false := by
  unfold lateCommit at h
  split at h
  next name planID hjob hcall =>
    exact ⟨hjob, ⟨name, planID, hcall⟩, by simpa using h⟩
  · cases h

theorem lossMoves_lateCommit :
    ∃ s, (machine duoConfig).run lossMoves { world := duoWorld } = some s ∧
      ∃ e ∈ s.log, lateCommit e = true := by
  have hrun : ((machine duoConfig).run lossMoves { world := duoWorld }).any
      (fun s => s.log.any lateCommit) = true := by decide +kernel
  obtain ⟨s, hs, hlog⟩ := (Option.any_eq_true _ _).mp hrun
  exact ⟨s, hs, any_eq_true.mp hlog⟩

theorem mutation_follows_check_loss :
    ∃ s before e after, (machine duoConfig).run lossMoves { world := duoWorld } = some s ∧
      s.log = before ++ e :: after ∧ e.job.ChecksLeader ∧ Call.mutates e.call = true ∧
      ¬ RecordsRefusal e.job e.call ∧
      ∃ check ∈ before, check.thread = e.thread ∧ check.pass = e.pass ∧
        check.call = Call.isLeader ∧ check.world.isLeader = true := by
  obtain ⟨s, hs, e, he, hlate⟩ := lossMoves_lateCommit
  obtain ⟨hjob, ⟨name, planID, hcall⟩, -⟩ := lateCommit_cases hlate
  obtain ⟨before, after, hlog⟩ := append_of_mem he
  have hchecks : e.job.ChecksLeader := by rw [hjob]; trivial
  have hmutates : Call.mutates e.call = true := by rw [hcall]; rfl
  have hrecord : ¬ RecordsRefusal e.job e.call := by rw [hjob, hcall]; exact id
  exact ⟨s, before, e, after, hs, hlog, hchecks, hmutates, hrecord,
    mutation_follows_check hs hlog hchecks hmutates hrecord⟩

/-- Mutations are made by a controller that is no longer the leader. -/
theorem reconcile_commits_after_loss :
    ∃ s, (machine duoConfig).run lossMoves { world := duoWorld } = some s ∧
      ∃ e ∈ s.log, (∃ name planID, e.call = Call.apply (.commit name planID)) ∧
        Call.mutates e.call = true ∧ e.world.isLeader = false := by
  obtain ⟨s, hs, e, he, hlate⟩ := lossMoves_lateCommit
  obtain ⟨-, ⟨name, planID, hcall⟩, hleader⟩ := lateCommit_cases hlate
  have hmutates : Call.mutates e.call = true := by rw [hcall]; rfl
  exact ⟨s, hs, e, he, ⟨name, planID, hcall⟩, hmutates, hleader⟩

end StarFabric.App

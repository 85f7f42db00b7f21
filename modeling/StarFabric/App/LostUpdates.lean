import StarFabric.App.Fencing
import StarFabric.Lib.Rely
import StarFabric.Topology.Atomic

/-!
# Topology events and the workers of the schedules

A worker compares the version of the topology with the one that its schedule expects, and replaces
the topology later. The store refuses a replacement that does not have a greater version. A schedule
that skips its first activation is two versions ahead, so that there is room for an event that is
overwritten (`overtakenForecast`).
-/

namespace StarFabric.App

open Go EffectProgram Machine Predictive List Option

/-! ### What the threads rely on -/

def World.topology (w : World) : TopologySnapshot := w.memory.topology.snapshot

def Onward (w w' : World) : Prop :=
  w'.topology = w.topology ∨ w.topology.version < w'.topology.version

def Reached (w : World) : Prop :=
  ∀ id schedule, w.memory.schedules.lookup id = some schedule →
    schedule.expectedTopologyVersion ≤ w.topology.version

/-- The next activation of each schedule that is running has the version after the one that the
schedule expects. -/
def Gapless (w : World) : Prop :=
  ∀ id schedule activation, w.memory.schedules.lookup id = some schedule →
    schedule.next = some activation →
      activation.topology.version = schedule.expectedTopologyVersion + 1

variable {w w' : World}

theorem Onward.le (h : Onward w w') : w.topology.version ≤ w'.topology.version := by
  rcases h with hsame | hlt
  · rw [hsame]
    exact UInt64.le_refl _
  · exact UInt64.le_of_lt hlt

theorem onward_refl (w : World) : Onward w w := .inl rfl

theorem Onward.trans {a b c : World} (hab : Onward a b) (hbc : Onward b c) : Onward a c := by
  rcases hbc with hsame | hlt
  · unfold Onward
    rw [hsame]
    exact hab
  · exact .inr (UInt64.lt_of_le_of_lt hab.le hlt)

/-- What the threads of a controller rely on, in runs in which the schedules have no gap. -/
def forecasts : Rely World where
  inv := Reached
  ok := Gapless
  rel := Onward
  refl := onward_refl
  trans := Onward.trans

theorem Reached.onward (h : Reached w) (hw : Onward w w')
    (hsame : w'.memory.schedules = w.memory.schedules) : Reached w' := by
  intro id schedule hlookup
  rw [hsame] at hlookup
  exact UInt64.le_trans (h id schedule hlookup) hw.le

/-! ### What a call does to the topology and to the schedules -/

/-- The calls that leave the topology and the schedules in memory as they are. -/
def Call.quiet : Call → Bool
  | applyEvent _ | applyEvents _ | replace _ | setTopology _ | unlockSchedules _ | start _ => false
  | _ => true

theorem handle_quiet_frame {cfg : Config} {e : Env} {c : Call} (hc : c.quiet = true) {x : c.Answer}
    (h : handle cfg e c w = some (x, w')) :
    w'.topology = w.topology ∧ w'.memory.schedules = w.memory.schedules := by
  cases c with
  | applyEvent _ | applyEvents _ | replace _ | setTopology _ | unlockSchedules _ | start _ =>
    cases hc
  | reconciler | lockReconciler | schedules | lockSchedules =>
    -- these block while the mutex is taken
    simp only [handle] at h
    split_ifs at h
    cases h
    exact ⟨rfl, rfl⟩
  | _ =>
    cases h
    exact ⟨rfl, rfl⟩

variable {env : Topology.CallEnv}

theorem onward_store (op : Topology.Op) :
    Onward w (w.setStore (Topology.call env w.store op).1) := by
  cases herr : (Topology.call env w.store op).2 with
  | none => exact .inr (Topology.call_ok herr).1.version
  | some e => exact .inl (Topology.call_err herr).snapshot

theorem Reached.store (h : Reached w) (op : Topology.Op) :
    Reached (w.setStore (Topology.call env w.store op).1) :=
  h.onward (onward_store op) rfl

/-! ### What a worker has seen -/

/-- The topology is what the worker has read in its check, with the version that the schedule
expects, or what it has put into the store itself. -/
def Seen (id : String) (own : List (Asked iface)) (topology : TopologySnapshot) : Prop :=
  (⟨Call.snapshot, topology⟩ ∈ own ∧ ∃ schedules schedule, ⟨Call.schedules, schedules⟩ ∈ own ∧
      AList.lookup id schedules = some schedule ∧
      schedule.expectedTopologyVersion = topology.version) ∨
    ⟨Call.replace topology, (none : Option String)⟩ ∈ own

/-- A worker replaces the topology that it has seen, by the version after it. -/
def Replaces : Job → List (Asked iface) → (c : Call) → c.Answer → World → World → Prop
  | .runPredictiveSchedule id, own, .replace snapshot, err, w, _ =>
    -- a replacement that the store refuses has no effect, and nothing is asked of it
    err = none → Seen id own w.topology ∧ snapshot.version = w.topology.version + 1
  | _, _, _, _, _, _ => True

section Within

variable {cfg : Config} {job : Job} {α β : Type} {Q : α → World → Prop} {R : β → World → Prop}
  {own : List (Asked iface)} {w : World}

abbrev Keeping (cfg : Config) (job : Job) (Q : α → World → Prop) (p : Prog iface α)
    (own : List (Asked iface)) (w : World) : Prop :=
  p.Within (handle cfg) forecasts (Replaces job) Q own w

variable {c : Call}

theorem replaces_of_quiet (hc : c.quiet = true) (x : c.Answer) (w' : World) :
    Replaces job own c x w w' := by
  cases job with
  | runPredictiveSchedule id =>
    cases c with
    | replace snapshot => cases hc
    | _ => trivial
  | _ => trivial

variable {f : c.Answer → Prog iface β}

theorem keeping_quiet (hc : c.quiet = true)
    (hf : ∀ e x w' w'', Onward w w' → Reached w' → Gapless w' → Onward w' w'' →
      handle cfg e c w' = some (x, w'') → Keeping cfg job R (f x) (own ++ [⟨c, x⟩]) w'') :
    Keeping cfg job R (Prog.ask (I := iface) c >>= f) own w := by
  intro w' hw hreached hgapless e x w'' hx
  obtain ⟨htopology, hschedules⟩ := handle_quiet_frame hc hx
  have hsame : Onward w' w'' := .inl htopology
  exact ⟨replaces_of_quiet hc x w'', hreached.onward hsame hschedules, hsame,
    hf e x w' w'' hw hreached hgapless hsame hx⟩

theorem keeping_skip (hc : c.quiet = true)
    (hf : ∀ x w'', Onward w w'' → Keeping cfg job R (f x) (own ++ [⟨c, x⟩]) w'') :
    Keeping cfg job R (Prog.ask (I := iface) c >>= f) own w :=
  keeping_quiet hc fun _ x _ w'' hw _ _ hsame _ => hf x w'' (hw.trans hsame)

variable {p : Prog iface α}

theorem keeping_of_always (hp : p.Always (fun c => Call.quiet c = true) fun _ => True) :
    Keeping cfg job (fun _ _ => True) p own w := by
  induction p generalizing own w with
  | done a => trivial
  | call c k ih =>
    intro w' _ hreached _ e x w'' hx
    obtain ⟨htopology, hschedules⟩ := handle_quiet_frame hp.1 hx
    have hsame : Onward w' w'' := .inl htopology
    exact ⟨replaces_of_quiet hp.1 x w'', hreached.onward hsame hschedules, hsame, ih x (hp.2 x)⟩

theorem keeping_once (hp : Keeping cfg job Q p own w) :
    Keeping cfg job (fun _ _ => True) (once p) own w :=
  hp.bind fun _ _ _ _ _ => trivial

end Within

/-! ### Requests that leave the topology and the schedules alone -/

section

variable {cfg : Config}

theorem always_quiet_embed {α : Type} (p : Prog Reconcile.iface α) :
    (p.embed (K := iface) Call.apply fun _ answer => answer).Always
      (fun c => Call.quiet c = true) fun _ => True := by
  induction p with
  | done a => trivial
  | call c k ih => exact ⟨rfl, ih⟩

theorem always_quiet_applyPlan (plan : RoutePlan) :
    (applyPlan cfg plan).Always (fun c => Call.quiet c = true) fun _ => True := by
  refine ⟨rfl, fun r => (always_quiet_embed _).bind fun outcome _ => ?_⟩
  exact ⟨rfl, fun _ => trivial⟩

theorem always_quiet_preview : (preview cfg).Always (fun c => Call.quiet c = true) fun _ => True :=
  ⟨rfl, fun _ => ⟨rfl, fun _ => ⟨rfl, fun _ => ⟨rfl, fun _ => trivial⟩⟩⟩⟩

theorem always_quiet_reconcile :
    (reconcile cfg).Always (fun c => Call.quiet c = true) fun _ => True := by
  refine ⟨rfl, fun leader => ?_⟩
  cases leader with
  | false => exact ⟨rfl, fun _ => trivial⟩
  | true =>
    refine always_quiet_preview.bind fun result _ => ?_
    cases result with
    | error e => trivial
    | ok plan => exact (always_quiet_applyPlan plan).bind fun _ _ => trivial

theorem always_quiet_setIntents (intents : List RouteIntent) :
    (setIntents cfg intents).Always (fun c => Call.quiet c = true) fun _ => True := by
  have hpersist : (persistIntents cfg intents).Always (fun c => Call.quiet c = true)
      fun _ => True := by
    unfold persistIntents
    split_ifs
    · trivial
    · exact ⟨rfl, fun _ => trivial⟩
  refine ⟨rfl, fun leader => ?_⟩
  cases leader with
  | false => trivial
  | true =>
    cases hcheck : checkIntents "intent " [] intents with
    | error e => trivial
    | ok _ =>
      refine hpersist.bind fun err _ => ?_
      cases err with
      | none => exact ⟨rfl, fun _ => trivial⟩
      | some e => trivial

theorem always_quiet_persist (schedules : Map PredictiveSchedule) :
    (persistPredictiveSchedules cfg schedules).Always (fun c => Call.quiet c = true)
      fun _ => True := by
  unfold persistPredictiveSchedules
  split_ifs
  · trivial
  · exact ⟨rfl, fun _ => trivial⟩

end

section Events

variable {cfg : Config} {job : Job} {own : List (Asked iface)} {w : World}

theorem keeping_withStore {store : Prog iface Topology.Reply}
    (hstore : ∀ own w, Keeping cfg job (fun _ _ => True) store own w) :
    Keeping cfg job (fun _ _ => True) (withStore store) own w := by
  refine keeping_skip (c := .isLeader) rfl fun leader w₁ _ => ?_
  cases leader with
  | false => exact keeping_skip (c := .snapshot) rfl fun _ _ _ => trivial
  | true =>
    -- the store is asked only by a leader, and the devices hear of what it has taken
    refine (hstore _ _).bind fun reply more w₂ _ _ => ?_
    obtain ⟨snapshot, err⟩ := reply
    cases err with
    | none => exact keeping_skip (c := .syncDeviceHealth snapshot) rfl fun _ _ _ => trivial
    | some e => trivial

theorem keeping_applyEvent (event : TopologyEvent) :
    Keeping cfg (.applyEvent event) (fun _ _ => True) (applyEvent event) own w := by
  refine keeping_withStore fun own w w' _ hreached _ e x w'' hx => ?_
  cases hx
  exact ⟨trivial, hreached.store (.apply event), onward_store (.apply event), trivial⟩

theorem keeping_applyEvents (events : List TopologyEvent) :
    Keeping cfg (.applyEvents events) (fun _ _ => True) (applyEvents events) own w := by
  refine keeping_withStore fun own w w' _ hreached _ e x w'' hx => ?_
  cases hx
  exact ⟨trivial, hreached.store (.applyBatch events), onward_store (.applyBatch events), trivial⟩

end Events

/-! ### New schedules -/

def Expects (schedules : Map PredictiveSchedule) (w : World) : Prop :=
  ∀ id schedule, schedules.lookup id = some schedule →
    schedule.expectedTopologyVersion ≤ w.topology.version

variable {schedules : Map PredictiveSchedule}

theorem Expects.onward (h : Expects schedules w) (hw : Onward w w') : Expects schedules w' :=
  fun id schedule hlookup => UInt64.le_trans (h id schedule hlookup) hw.le

theorem Expects.insert (h : Expects schedules w) {id : String} {schedule : PredictiveSchedule}
    (hnew : schedule.expectedTopologyVersion ≤ w.topology.version) :
    Expects (schedules.insert id schedule) w := by
  intro id' schedule' hlookup
  rcases of_lookup_insert hlookup with ⟨rfl, rfl⟩ | hbefore
  · exact hnew
  · exact h id' schedule' hbefore

theorem Expects.erase (h : Expects schedules w) (id : String) : Expects (schedules.erase id) w := by
  intro id' schedule' hlookup
  by_cases hid : id' = id
  · subst hid
    rw [AList.lookup_erase] at hlookup
    cases hlookup
  · rw [AList.lookup_erase_ne hid] at hlookup
    exact h id' schedule' hlookup

section Schedules

variable {cfg : Config} {job : Job} {α : Type} {Q : α → World → Prop}
  {own : List (Asked iface)} {w : World}

variable {schedules : Map PredictiveSchedule}

theorem replaces_unlock {w' : World} (x : Unit) :
    Replaces job own (.unlockSchedules schedules) x w w' := by
  cases job <;> trivial

theorem keeping_unlock {f : Unit → Prog iface α} (hexpects : Expects schedules w)
    (hf : ∀ own w', Onward w w' → Keeping cfg job Q (f ()) own w') :
    Keeping cfg job Q (Ask.unlockSchedules schedules >>= f) own w := by
  intro w' hw hreached hgapless e x w'' hx
  cases hx
  exact ⟨replaces_unlock (), hexpects.onward hw, onward_refl w', hf _ _ hw⟩

theorem keeping_lock {f : Map PredictiveSchedule → Prog iface α}
    (hf : ∀ schedules own w', Onward w w' → Expects schedules w' →
      Keeping cfg job Q (f schedules) own w') :
    Keeping cfg job Q (Ask.lockSchedules >>= f) own w := by
  refine keeping_quiet (c := .lockSchedules) rfl fun e x w' w'' hw hreached _ hsame hx => ?_
  have hexpects : Expects x w' := by
    simp only [handle] at hx
    split_ifs at hx
    cases hx
    exact hreached
  exact hf x _ w'' (hw.trans hsame) (hexpects.onward hsame)

theorem keeping_snapshot {f : TopologySnapshot → Prog iface α}
    (hf : ∀ w', Onward w w' →
      Keeping cfg job Q (f w'.topology) (own ++ [⟨Call.snapshot, w'.topology⟩]) w') :
    Keeping cfg job Q (Ask.snapshot >>= f) own w := by
  refine keeping_quiet (c := .snapshot) rfl fun e x w' w'' hw _ _ _ hx => ?_
  cases hx
  exact hf w' hw

theorem keeping_create (windows : List ContactWindow) (horizon lead : Duration) :
    Keeping cfg job (fun _ _ => True)
      (createPredictiveSchedule cfg windows horizon lead) own w := by
  refine keeping_skip (c := .isLeader) rfl fun leader w₁ _ => ?_
  cases leader with
  | false => trivial
  | true =>
    refine keeping_snapshot fun w₂ _ => ?_
    refine keeping_skip (c := .intents) rfl fun (intents : List RouteIntent) w₃ h₃ => ?_
    refine keeping_skip (c := .now) rfl fun (from_ : Time) w₄ h₄ => ?_
    refine keeping_skip (c := .now) rfl fun (clock : Time) w₅ h₅ => ?_
    dsimp only
    split
    · trivial
    next activations _ =>
      refine keeping_skip (c := .now) rfl fun (now : Time) w₆ h₆ => ?_
      refine keeping_skip (c := .reconciler) rfl fun (r : Reconcile.Reconciler) w₇ h₇ => ?_
      refine keeping_lock fun schedules own w₈ h₈ hexpects => ?_
      -- the new schedule expects the version that was read at the beginning
      have hbase : w₂.topology.version ≤ w₈.topology.version :=
        (h₃.trans (h₄.trans (h₅.trans (h₆.trans (h₇.trans h₈))))).le
      split
      · -- an identifier that is taken: the schedules are put back as they were
        exact keeping_unlock hexpects fun _ _ _ => trivial
      · refine (keeping_of_always (always_quiet_persist _)).bind fun err more w₉ h₉ _ => ?_
        have hadded : Expects (schedules.insert (newSchedule w₂.topology activations now
            r.committedPlan).id (newSchedule w₂.topology activations now r.committedPlan)) w₉ :=
          (hexpects.insert hbase).onward h₉
        cases err with
        -- the file could not be written, and the schedule is taken out again
        | some e => exact keeping_unlock (hadded.erase _) fun _ _ _ => trivial
        | none => exact keeping_unlock hadded fun _ _ _ => trivial

end Schedules

/-! ### Workers -/

theorem toNat_succ_le (a : UInt64) : (a + 1).toNat ≤ a.toNat + 1 := by
  exact Nat.mod_le _ _

theorem eq_succ_of_between {a b : UInt64} (hlt : a < b) (hle : b.toNat ≤ a.toNat + 1) :
    b = a + 1 := by
  have hb := b.toNat_lt
  have hone : (1 : UInt64).toNat = 1 := rfl
  rw [UInt64.lt_iff_toNat_lt] at hlt
  apply UInt64.toNat_inj.mp
  rw [UInt64.toNat_add, hone]
  omega

variable {version : UInt64}

/-- When there is no room between the version of a replacement and the one that was seen, a store
that takes the replacement holds what was seen. -/
theorem Onward.same (h : Onward w w') (hnext : version.toNat ≤ w.topology.version.toNat + 1)
    (hlt : w'.topology.version < version) :
    w'.topology = w.topology ∧ version = w'.topology.version + 1 := by
  -- a store that has gone on is at the version of the replacement already
  rcases h with hsame | hlater
  · exact ⟨hsame, eq_succ_of_between hlt (hsame ▸ hnext)⟩
  · rw [UInt64.lt_iff_toNat_lt] at hlater hlt
    omega

theorem Onward.next_le (h : Onward w w') (hnext : version.toNat ≤ w.topology.version.toNat + 1) :
    version.toNat ≤ w'.topology.version.toNat + 1 := by
  have hle := h.le
  rw [UInt64.le_iff_toNat_le] at hle
  omega

section Worker

variable {cfg : Config} {id : String} {α : Type} {Q : α → World → Prop}
  {own : List (Asked iface)} {w : World}

theorem keeping_replace {snapshot : TopologySnapshot} {f : Option String → Prog iface α}
    (hseen : ∀ w', Onward w w' → w'.topology.version < snapshot.version →
      Seen id own w'.topology ∧ snapshot.version = w'.topology.version + 1)
    (hf : ∀ err w', Onward w w' → (err = none → w'.topology = snapshot) →
      Keeping cfg (.runPredictiveSchedule id) Q (f err)
        (own ++ [⟨Call.replace snapshot, err⟩]) w') :
    Keeping cfg (.runPredictiveSchedule id) Q (Ask.replace snapshot >>= f) own w := by
  intro w' hw hreached _ e x w'' hx
  obtain ⟨honward, hreached'⟩ : Onward w' w'' ∧ Reached w'' := by
    cases hx
    exact ⟨onward_store (.replace snapshot), hreached.store (.replace snapshot)⟩
  -- it is refused, or it is taken because its version is greater
  have hcases : (∃ text, x = some text) ∨
      x = none ∧ w'.topology.version < snapshot.version ∧ w''.topology = snapshot := by
    cases hx
    obtain ⟨⟨text, herr⟩, -⟩ | ⟨hok, -, hlt, hstore⟩ :=
      Topology.replace_cases ⟨e.now, e.writeFault⟩ w'.store snapshot
    · exact .inl ⟨text, herr⟩
    · exact .inr ⟨hok, hlt, congrArg Topology.Store.snapshot hstore⟩
  refine ⟨?_, hreached', honward, hf x w'' (hw.trans honward) ?_⟩
  · intro hok
    obtain ⟨text, herr⟩ | ⟨-, hlt, -⟩ := hcases
    · exact nomatch hok.symm.trans herr
    · exact hseen w' hw hlt
  · intro hok
    obtain ⟨text, herr⟩ | ⟨-, -, hstore⟩ := hcases
    · exact nomatch hok.symm.trans herr
    · exact hstore

def Activated (activation : Activation) (err : Option String) (w : World) : Prop :=
  err = none → activation.topology.version ≤ w.topology.version

variable {activation : Activation}

theorem keeping_activate (hown : Seen id own w.topology)
    (hnext : activation.topology.version.toNat ≤ w.topology.version.toNat + 1) :
    Keeping cfg (.runPredictiveSchedule id) (Activated activation)
      (activate cfg w.topology activation) own w := by
  refine keeping_replace (fun w' hw hlt => ?_) fun err w₁ _ hreplaced => ?_
  · -- whoever came in between has taken the version that the replacement has
    obtain ⟨hsame, hsucc⟩ := hw.same hnext hlt
    rw [hsame] at hsucc ⊢
    exact ⟨hown, hsucc⟩
  cases err with
  | some e => exact fun hok => nomatch hok
  | none =>
    -- from here on the worker knows what it has put there itself
    have hput : w₁.topology = activation.topology := hreplaced rfl
    refine keeping_skip (c := .syncDeviceHealth activation.topology) rfl fun _ w₂ h₂ => ?_
    refine (keeping_of_always (always_quiet_applyPlan activation.plan)).bind
      fun outcome more w₃ h₃ _ => ?_
    obtain ⟨status, err⟩ := outcome
    have h₁₃ : Onward w₁ w₃ := h₂.trans h₃
    cases err with
    -- the plan is in force, and the store is at the version of the activation or later
    | none => exact fun _ => hput ▸ h₁₃.le
    | some e =>
      -- the plan was not applied, so the topology from before is put back
      refine keeping_skip (c := .now) rfl fun (now : Time) w₄ h₄ => ?_
      have h₁₄ : Onward w₁ w₄ := h₁₃.trans h₄
      refine keeping_replace (fun w' hw hlt => ?_) fun restoreErr w₅ _ _ => ?_
      · -- what is put back has the version after that of the activation
        obtain ⟨hsame, hsucc⟩ := (h₁₄.trans hw).same (hput ▸ toNat_succ_le _) hlt
        refine ⟨.inr ?_, hsucc⟩
        rw [hsame, hput]
        simp
      · exact keeping_skip (c := .syncDeviceHealth _) rfl fun _ _ _ hok => nomatch hok

theorem keeping_activatePrediction
    (hnext : activation.topology.version.toNat ≤ w.topology.version.toNat + 1) :
    Keeping cfg (.runPredictiveSchedule id) (Activated activation)
      (activatePrediction cfg id activation) own w := by
  refine keeping_skip (c := .isLeader) rfl fun leader w₁ h₁ => ?_
  cases leader with
  | false => exact nofun
  | true =>
    refine keeping_skip (c := .schedules) rfl fun (schedules : Map PredictiveSchedule) w₂ h₂ => ?_
    cases hlookup : schedules.lookup id with
    | none => exact nofun
    | some schedule =>
      dsimp only
      split_ifs with hstate
      · exact nofun
      refine keeping_snapshot fun w₃ h₃ => ?_
      split_ifs with hactivated hexpected
      · -- the activation was made before a restart, and only its plan is looked at
        refine keeping_skip (c := .reconciler) rfl fun (r : Reconcile.Reconciler) w₄ h₄ => ?_
        split_ifs
        · exact fun _ => hactivated ▸ h₄.le
        · exact nofun
      · exact nofun
      · -- the version is the expected one: this is what the worker has seen
        refine keeping_activate (.inl ⟨?_, schedules, schedule, ?_, hlookup, ?_⟩) ?_
        · simp
        · simp
        · exact (not_not.mp hexpected).symm
        · exact (h₁.trans (h₂.trans h₃)).next_le hnext

theorem keeping_finish {version : UInt64} {err : Option String}
    (hversion : err = none → version ≤ w.topology.version) :
    Keeping cfg (.runPredictiveSchedule id) (fun _ _ => True)
      (finishPredictiveActivation cfg id version err) own w := by
  refine keeping_lock fun schedules own w₁ h₁ hexpects => ?_
  cases hlookup : schedules.lookup id with
  | none => exact keeping_unlock hexpects fun _ _ _ => trivial
  | some schedule =>
    refine keeping_skip (c := .now) rfl fun (now : Time) w₂ h₂ => ?_
    refine (keeping_of_always (always_quiet_persist _)).bind fun _ more w₃ h₃ _ => ?_
    refine keeping_unlock (((hexpects.onward h₂).insert ?_).onward h₃) fun _ _ _ => trivial
    cases err with
    -- a failed activation leaves the expected version as it was
    | some e => exact UInt64.le_trans (hexpects id schedule hlookup) h₂.le
    | none => exact UInt64.le_trans (hversion rfl) (h₁.trans h₂).le

theorem keeping_runPredictiveSchedule :
    Keeping cfg (.runPredictiveSchedule id) (fun _ _ => True)
      (runPredictiveSchedule cfg id) own w := by
  refine keeping_quiet (c := .schedules) rfl fun e (schedules : Map PredictiveSchedule) w₀ w₁ _
    hreached hgapless h₁ hx => ?_
  have hread : schedules = w₀.memory.schedules := by
    simp only [handle] at hx
    split_ifs at hx
    cases hx
    rfl
  cases hnext : (schedules.lookup id).bind PredictiveSchedule.next with
  | none => trivial
  | some activation =>
    -- the activation that the schedule waits for is one version ahead of what the store has reached
    obtain ⟨schedule, hlookup, hactivation⟩ := bind_eq_some_iff.mp hnext
    rw [hread] at hlookup
    have hversion : activation.topology.version.toNat ≤ w₀.topology.version.toNat + 1 := by
      have hle := hreached id schedule hlookup
      have hsucc := toNat_succ_le schedule.expectedTopologyVersion
      rw [← hgapless id schedule activation hlookup hactivation] at hsucc
      rw [UInt64.le_iff_toNat_le] at hle
      omega
    refine keeping_skip (c := .wait activation.activateAt) rfl fun reached w₂ h₂ => ?_
    cases reached with
    | false => trivial
    | true =>
      have hstill := (h₁.trans h₂).next_le hversion
      refine (keeping_activatePrediction hstill).bind fun err more w₃ _ hactivated => ?_
      cases err with
      | none => exact (keeping_finish hactivated).bind fun _ _ _ _ _ => trivial
      | some e =>
        refine Prog.Within.bind (keeping_finish ?_) fun _ _ _ _ _ => trivial
        exact nofun

end Worker

/-! ### Every interleaving -/

/-- The jobs of a controller in service: all but the loading at start-up and at a takeover. -/
def Job.InService : Job → Prop
  | load _ _ | reload => False
  | _ => True

theorem machine_relies (cfg : Config) : (machine cfg).Relies forecasts Job.InService Replaces where
  drift d w hw := ⟨hw, .inl rfl⟩
  program job own w hjob _ := by
    cases job with
    | load _ _ | reload => exact hjob.elim
    | setIntents intents => exact keeping_once (keeping_of_always (always_quiet_setIntents intents))
    | reconcile => exact keeping_once (keeping_of_always always_quiet_reconcile)
    | applyPlan plan => exact keeping_once (keeping_of_always (always_quiet_applyPlan plan))
    | applyEvent event => exact keeping_once (keeping_applyEvent event)
    | applyEvents events => exact keeping_once (keeping_applyEvents events)
    | createPredictiveSchedule windows horizon lead =>
      exact keeping_once (keeping_create windows horizon lead)
    | runPredictiveSchedule id => exact keeping_runPredictiveSchedule

def newContact : List ContactWindow :=
  [⟨{ id := "ab2", source := "a", target := "b", latencyUS := 1, capacityBPS := 100 }, 15, 30⟩]

def abDown : TopologyEvent where
  eventID := "e"
  subject := "ab"
  sequence := 1
  type := .linkDown
  link := some { id := "ab", source := "a", target := "b" }

def workerJob : Job := .runPredictiveSchedule ("predictive-" ++ toString (Time.unixNano 10))

def orderlyForecast : List (Move Job Env Bool) :=
  .spawn (.createPredictiveSchedule newContact 50 0) :: turns 10 0 ++ .spawn workerJob :: turns 6 1

/-- The routes of the first forecast are in force when the schedule is made. The worker has made its
check when an event is accepted. -/
def overtakenForecast : List (Move Job Env Bool) :=
  .spawn .reconcile :: turns 30 0 ++
    .spawn (.createPredictiveSchedule newContact 50 0) :: turns 10 1 ++
      .spawn workerJob :: turns 5 2 ++ .spawn (.applyEvent abDown) :: turns 3 3 ++ turns 1 2

def gapless (w : World) : Bool :=
  w.memory.schedules.entries.all fun s =>
    s.2.next.all fun a => a.topology.version = s.2.expectedTopologyVersion + 1

theorem gapless_of_test (h : gapless w = true) : Gapless w := by
  intro id schedule activation hlookup hnext
  have hmem : (⟨id, schedule⟩ : Sigma fun _ : String => PredictiveSchedule) ∈
      w.memory.schedules.entries := AList.mem_lookup_iff.mp hlookup
  have htest := all_eq_true.mp h _ hmem
  rw [hnext] at htest
  exact of_decide_eq_true htest

def takesReplacement : Entry iface Job World → Bool
  | ⟨_, _, .runPredictiveSchedule _, .replace _, none, _⟩ => true
  | _ => false

theorem eq_of_takesReplacement {e : Entry iface Job World} (h : takesReplacement e = true) :
    ∃ thread pass id snapshot world, e = ⟨thread, pass, .runPredictiveSchedule id,
      Call.replace snapshot, (none : Option String), world⟩ := by
  unfold takesReplacement at h
  split at h
  · exact ⟨_, _, _, _, _, rfl⟩
  · cases h

theorem orderlyForecast_replaces :
    ∃ s ∈ (machine duoConfig).run orderlyForecast { world := duoWorld },
      ∃ e ∈ s.log, takesReplacement e = true := by
  decide +kernel

theorem inService_orderlyForecast : ∀ job, .spawn job ∈ orderlyForecast → job.InService := by
  intro job hjob
  have hturn : ∀ n thread, (.spawn job : Move Job Env Bool) ∉ turns n thread :=
    fun n thread h => nomatch (mem_replicate.mp h).2
  unfold orderlyForecast at hjob
  simp only [cons_append, mem_cons, mem_append, hturn, false_or, or_false] at hjob
  rcases hjob with hcreate | hworker
  · cases hcreate
    trivial
  · cases hworker
    trivial

inductive TopologyStep where
  | checks (version : UInt64)
  | accepts (version : UInt64)
  | replaces (old new : UInt64)
  deriving DecidableEq, Repr

/-- A worker reads the topology, an event is accepted, or a worker replaces the topology. -/
def topologyStep : Entry iface Job World → Option TopologyStep
  | ⟨_, _, .runPredictiveSchedule _, .snapshot, topology, _⟩ =>
    some (.checks (TopologySnapshot.version topology))
  | ⟨_, _, _, .applyEvent _, reply, _⟩ =>
    match (reply : Topology.Reply) with
    | ⟨snapshot, none⟩ => some (.accepts snapshot.version)
    | _ => none
  | ⟨_, _, .runPredictiveSchedule _, .replace snapshot, none, w⟩ =>
    some (.replaces w.topology.version snapshot.version)
  | _ => none

end StarFabric.App

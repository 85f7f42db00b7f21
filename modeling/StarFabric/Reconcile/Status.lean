import StarFabric.Reconcile.Safety

/-!
# What a nil error says about the status

Only `record` writes the phase *committed*, together with the plan it commits (`Lifetime.faithful`).
When the plan has the id of the committed one and is found on the devices, `Apply` puts back the
status that it found at entry, whatever that was about (`Settled`). None of this depends on what the
outside answers: the proofs use `Prog.Always`.
-/

namespace StarFabric.Reconcile

open Go EffectProgram Adapter Durable Prog Option

/-- The status is about the plan. -/
structure Names (plan : RoutePlan) (status : ReconcileStatus) : Prop where
  planID : status.planID = plan.id
  topologyVersion : status.topologyVersion = plan.topologyVersion

def Faithful (status : ReconcileStatus) (committedPlan : Option RoutePlan) : Prop :=
  status.phase = .committed → ∃ p, committedPlan = some p ∧ Names p status

def Call.FaithfulWrite : Call → Prop
  | .write ⟨status, committedPlan, _⟩ => Faithful status committedPlan
  | _ => True

/-- How a stage of `Apply` ends: its status, also the one of a failure, is about the plan. -/
def StageNames {β : Type} (plan : RoutePlan) (status : β → ReconcileStatus) :
    Except Failure β → Prop
  | .error f => Names plan f.status
  | .ok b => Names plan (status b)

/-! ### Device calls write nothing -/

section

variable {cfg : Config}

theorem always_call (c : Call) (h : c.FaithfulWrite) :
    Always Call.FaithfulWrite (fun _ => True) (ask (I := iface) c) :=
  always_ask h

theorem always_invoke {α : Type} {operation : Prog iface (Except String α)}
    (h : Always Call.FaithfulWrite (fun _ => True) operation) :
    Always Call.FaithfulWrite (fun _ => True) (invoke cfg operation) := by
  unfold invoke
  -- induction on the attempts that are left
  induction cfg.retryCount with
  | zero => exact h
  | succ retries ih =>
    refine h.bind fun result _ => ?_
    cases result with
    | ok a => exact always_pure trivial
    | error _ =>
      refine (always_call .done trivial).bind fun stopped _ => ?_
      cases stopped with
      | some e => exact always_pure trivial
      | none => exact ih

theorem always_readDevices {names : List String} {read : String → Prog iface (Except String Unit)}
    (h : ∀ name, Always Call.FaithfulWrite (fun _ => True) (read name)) :
    Always Call.FaithfulWrite (fun _ => True) (readDevices cfg names read) := by
  have hdevice : ∀ name, Always Call.FaithfulWrite (fun _ => True) (readDevice read name) := by
    intro name
    refine (always_call (.get name) trivial).bind fun registered _ => ?_
    cases registered with
    | true => exact (h name).bind fun _ _ => always_pure trivial
    | false => exact always_pure trivial
  have hbatch : ∀ batch, Always Call.FaithfulWrite (fun _ => True) (readBatch read batch) := by
    intro batch
    refine (always_call .order trivial).bind fun rank _ => ?_
    exact (Always.forEach fun name _ => hdevice name).bind fun _ _ => always_pure trivial
  exact (Always.forEach fun batch _ => hbatch batch).bind fun _ _ => always_pure trivial

theorem always_verifyDevice (planID : String) (plans : Map RoutePlan) (name : String) :
    Always Call.FaithfulWrite (fun _ => True) (verifyDevice cfg planID plans name) := by
  refine (always_invoke (always_call (.state name) trivial)).bind fun result _ => ?_
  cases result with
  | error e => exact always_pure trivial
  | ok state =>
    dsimp only
    split_ifs
    · exact always_pure trivial
    · exact always_pure trivial
    · exact always_pure trivial

theorem always_verify (planID : String) (names : List String) (plans : Map RoutePlan) :
    Always Call.FaithfulWrite (fun _ => True) (verify cfg planID names plans) :=
  (always_readDevices (always_verifyDevice planID plans)).bind fun _ _ => always_pure trivial

theorem always_precheckDevice (name : String) :
    Always Call.FaithfulWrite (fun _ => True) (precheckDevice cfg name) := by
  refine (always_invoke (always_call (.health name) trivial)).bind fun health _ => ?_
  cases health with
  | error e => exact always_pure trivial
  | ok _ =>
    refine (always_invoke (always_call (.state name) trivial)).bind fun result _ => ?_
    cases result with
    | error e => exact always_pure trivial
    | ok state =>
      dsimp only
      split_ifs
      · exact always_pure trivial
      · exact always_pure trivial

theorem always_revalidate (plan : RoutePlan) :
    Always Call.FaithfulWrite (fun _ => True) (revalidate plan) :=
  (always_call .topology trivial).bind fun _ _ =>
    (always_call .now trivial).bind fun _ _ => always_pure trivial

end

/-! ### The stages keep the name of the plan -/

section

variable {cfg : Config} {plan : RoutePlan} {plans : Map RoutePlan}

theorem always_prepareLoop (results : List (String × Except String Unit)) (s : Staged)
    (hs : Names plan s.status) :
    Always Call.FaithfulWrite (StageNames plan Staged.status)
      (prepareLoop cfg plans results s) := by
  induction results generalizing s with
  | nil => exact always_pure hs
  | cons result rest ih =>
    obtain ⟨name, health⟩ := result
    refine (always_call (.get name) trivial).bind fun registered _ => ?_
    -- every branch only appends to a list of device names of the status
    cases registered with
    | false => exact always_pure ⟨hs.planID, hs.topologyVersion⟩
    | true =>
      cases health with
      | error e =>
        cases hroutes : (planOf plans name).routes with
        | nil => exact ih _ ⟨hs.planID, hs.topologyVersion⟩
        | cons route routes => exact always_pure ⟨hs.planID, hs.topologyVersion⟩
      | ok _ =>
        refine (always_invoke (always_call (.prepare name (planOf plans name)) trivial)).bind
          fun prepared _ => ?_
        cases prepared with
        | error e => exact always_pure ⟨hs.planID, hs.topologyVersion⟩
        | ok _ => exact ih _ ⟨hs.planID, hs.topologyVersion⟩

theorem Names.commitResults {status : ReconcileStatus} (hs : Names plan status)
    (results : List (String × Except String Unit)) :
    Names plan (commitResults status results).1 := by
  induction results generalizing status with
  | nil => exact hs
  | cons result rest ih =>
    obtain ⟨name, result⟩ := result
    cases result with
    | ok _ => exact ih ⟨hs.planID, hs.topologyVersion⟩
    | error e => exact ih ⟨hs.planID, hs.topologyVersion⟩

theorem always_commitLoop (prepared : List String) (batches : List (List String))
    (status : ReconcileStatus) (hs : Names plan status) :
    Always Call.FaithfulWrite (StageNames plan id)
      (commitLoop cfg plan plans prepared batches status) := by
  induction batches generalizing status with
  | nil => exact always_pure hs
  | cons batch rest ih =>
    refine (always_revalidate plan).bind fun valid _ => ?_
    cases valid with
    | error e => exact always_pure hs
    | ok _ =>
      refine (always_readDevices fun name =>
        always_invoke (always_call (.commit name plan.id) trivial)).bind fun results _ => ?_
      have hafter := hs.commitResults (batch.zip results)
      cases hresults : Reconcile.commitResults status (batch.zip results) with
      | mk after errs =>
        rw [hresults] at hafter
        cases errs with
        | cons err errs => exact always_pure hafter
        | nil =>
          refine (always_verify plan.id batch plans).bind fun verified _ => ?_
          cases verified with
          | error e => exact always_pure hafter
          | ok _ => exact ih after hafter

theorem always_finalChecks (s : Staged) (hs : Names plan s.status) :
    Always Call.FaithfulWrite (StageNames plan id) (finalChecks cfg plan plans s) := by
  refine (always_revalidate plan).bind fun valid _ => ?_
  cases valid with
  | error e => exact always_pure hs
  | ok _ =>
    refine (always_verify plan.id s.activeNames plans).bind fun verified _ => ?_
    cases verified with
    | error e => exact always_pure hs
    | ok _ =>
      split_ifs
      · refine (always_invoke (always_call (.verify plan) trivial)).bind fun probed _ => ?_
        cases probed with
        | error e => exact always_pure hs
        | ok _ => exact always_pure hs
      · exact always_pure hs

theorem always_transact (names : List String) (status : ReconcileStatus)
    (hs : Names plan status) :
    Always Call.FaithfulWrite (StageNames plan Staged.status)
      (transact cfg plan plans names status) := by
  refine (always_readDevices always_precheckDevice).bind fun health _ => ?_
  refine (always_prepareLoop (names.zip health) _ ⟨hs.planID, hs.topologyVersion⟩).bind
    fun staged hstaged => ?_
  cases staged with
  | error f => exact always_pure hstaged
  | ok staged =>
    have hcommitting : Names plan { staged.status with phase := .committing } :=
      ⟨hstaged.planID, hstaged.topologyVersion⟩
    refine (always_commitLoop staged.prepared _ _ hcommitting).bind fun committed hcommitted => ?_
    cases committed with
    | error f => exact always_pure hcommitted
    | ok status =>
      have hverifying : Names plan { status with phase := .verifying } :=
        ⟨hcommitted.planID, hcommitted.topologyVersion⟩
      refine (always_finalChecks { staged with status := { status with phase := .verifying } }
        hverifying).bind fun checked hchecked => ?_
      cases checked with
      | error f => exact always_pure hchecked
      | ok status => exact always_pure hchecked

end

/-! ### `Apply` -/

structure Reported (r : Reconciler) (plan : RoutePlan) (o : Outcome) : Prop where
  faithful : Faithful o.status o.reconciler.committedPlan
  ok : o.err = none →
    (o.reconciler = r ∧ r.committedPlan.map RoutePlan.id = some plan.id) ∨
    (o.status.phase = .committed ∧ Names plan o.status ∧ o.reconciler.committedPlan = some plan)

section Apply

variable {cfg : Config} {r : Reconciler} {plan : RoutePlan}

theorem always_persist (r : Reconciler) (h : Faithful r.status r.committedPlan) :
    Always Call.FaithfulWrite (fun _ => True) (persist cfg r) := by
  unfold persist
  split_ifs
  · exact always_pure trivial
  · exact always_call (.write _) h

theorem always_fail (r r' : Reconciler) (cause : String) (rollback : List String) :
    Always Call.FaithfulWrite (Reported r plan) (fail cfg r' cause rollback) := by
  have hdevice : ∀ name, Always Call.FaithfulWrite (fun _ => True)
      (rollbackDevice r'.status.planID name) := by
    intro name
    refine (always_call (.get name) trivial).bind fun registered _ => ?_
    cases registered with
    | false => exact always_pure trivial
    | true =>
      refine (always_call (.rollback name _) trivial).bind fun result _ => ?_
      cases result with
      | ok _ => exact always_pure trivial
      | error e => exact always_pure trivial
  refine (Always.forEach fun name _ => hdevice name).bind fun errs _ => ?_
  refine (always_call .now trivial).bind fun finishedAt _ => ?_
  have hfailed : ∀ (c : Prop) [Decidable c], (if c then ReconcilePhase.rolledBack else .failed) ≠
      .committed := by
    intro c _
    split_ifs <;> decide
  refine (always_persist _ fun h => absurd h (hfailed _)).bind fun _ _ => ?_
  exact always_pure ⟨fun h => absurd h (hfailed _), nofun⟩

theorem always_record (r r' : Reconciler) (s : Staged) (hs : Names plan s.status) :
    Always Call.FaithfulWrite (Reported r plan) (record cfg r' plan s) := by
  refine (always_call .now trivial).bind fun finishedAt _ => ?_
  have hnames : Names plan { s.status with phase := .committed, finishedAt := finishedAt } :=
    ⟨hs.planID, hs.topologyVersion⟩
  refine (always_persist ⟨_, some plan, s.deferred⟩ fun _ => ⟨plan, rfl, hnames⟩).bind
    fun written _ => ?_
  cases written with
  | ok _ => exact always_pure ⟨fun _ => ⟨plan, rfl, hnames⟩, fun _ => .inr ⟨rfl, hnames, rfl⟩⟩
  | error e => exact always_fail r _ _ _

theorem always_program (r r' : Reconciler) (plans : Map RoutePlan) (names : List String)
    (hr : Names plan r'.status) :
    Always Call.FaithfulWrite (Reported r plan) (program cfg r' plan plans names) := by
  refine (always_transact names r'.status hr).bind fun result hresult => ?_
  cases result with
  | error f => exact always_fail r _ _ _
  | ok staged => exact always_record r r' staged hresult

theorem always_apply (cfg : Config) (r : Reconciler) (plan : RoutePlan)
    (hr : Faithful r.status r.committedPlan) :
    Always Call.FaithfulWrite (Reported r plan) (Reconcile.apply cfg r plan) := by
  refine (always_call .now trivial).bind fun started _ => ?_
  refine (always_call .topology trivial).bind fun topology _ => ?_
  have hbegin : Names plan (r.begin plan started).status := ⟨rfl, rfl⟩
  cases Validation.plan plan topology started with
  | error e => exact always_fail r _ _ _
  | ok _ =>
    cases splitPlan plan (additionalDevices (r.begin plan started)) with
    | error e => exact always_fail r _ _ _
    | ok plans =>
      split_ifs with hsame
      · refine (always_verify plan.id (sortStrings plans.keys) plans).bind fun verified _ => ?_
        cases verified with
        | ok _ => exact always_pure ⟨hr, fun _ => .inl ⟨rfl, hsame⟩⟩
        | error e => exact always_program r _ plans _ hbegin
      · exact always_program r _ plans _ hbegin

end Apply

/-! ### The life of a controller -/

/-- The systems that a controller goes through, from the day it is set up with fresh devices and
without a state file: runs of `Apply`, `Reload` of the state file, and process stops at any call
followed by a restart. -/
inductive Lifetime (cfg : Config) (env : ℕ → Env) : System → Prop where
  | start (names : List String) (tick : ℕ) :
      Lifetime cfg env ⟨{}, ⟨tick, Registry.new (names.map MemoryDevice.new), none⟩⟩
  | apply {s : System} (plan : RoutePlan) : Lifetime cfg env s →
      Lifetime cfg env (s.apply cfg env plan)
  | reload {s : System} {state : PersistentState} : Lifetime cfg env s →
      s.world.file = some state → Lifetime cfg env ⟨load (some state), s.world⟩
  | stop {s : System} (plan : RoutePlan) (calls : ℕ) : Lifetime cfg env s →
      Lifetime cfg env (reload (s.stopped cfg env plan calls))

def FaithfulFile (w : World) : Prop :=
  ∀ state, w.file = some state → Faithful state.status state.committedPlan

section Life

variable {cfg : Config} {env : ℕ → Env} {s : System} {plan : RoutePlan}

theorem onDevice_file {α : Type} {w : World} {e : Env} {name : String}
    {f : MemoryDevice → Except String α × MemoryDevice} :
    (w.onDevice e name f).2.file = w.file := by
  unfold World.onDevice
  cases w.devices.get name with
  | none => rfl
  | some d => rfl

theorem handle_file {c : Call} {w : World} (hc : ∀ state, c ≠ .write state) :
    (handle cfg env c w).2.file = w.file := by
  cases c with
  | write state => exact absurd rfl (hc state)
  | health name => exact onDevice_file (w := { w with tick := w.tick + 1 })
  | prepare name plan => exact onDevice_file (w := { w with tick := w.tick + 1 })
  | commit name planID => exact onDevice_file (w := { w with tick := w.tick + 1 })
  | rollback name planID => exact onDevice_file (w := { w with tick := w.tick + 1 })
  | state name => exact onDevice_file (w := { w with tick := w.tick + 1 })
  | topology | now | done | order | get name | verify plan => rfl

theorem FaithfulFile.handle (c : Call) (w : World) (hc : c.FaithfulWrite) (hw : FaithfulFile w) :
    FaithfulFile (handle cfg env c w).2 := by
  intro state hstate
  by_cases hwrite : ∃ new, c = .write new
  · obtain ⟨new, rfl⟩ := hwrite
    -- a failing write leaves the old file or the new one
    rcases writeFile_file cfg.statePath new (env w.tick).writeFault w.file with hold | hnew
    · exact hw state (hold.symm.trans hstate)
    · cases Option.some.inj (hnew.symm.trans hstate)
      exact hc
  · rw [handle_file fun new h => hwrite ⟨new, h⟩] at hstate
    exact hw state hstate

/-- **A committed status is about the committed plan**, in memory and in the state file, all
through the life of a controller. -/
theorem Lifetime.faithful (h : Lifetime cfg env s) :
    Faithful s.reconciler.status s.reconciler.committedPlan ∧ FaithfulFile s.world := by
  induction h with
  | start names tick =>
    have hfile : FaithfulFile ⟨tick, Registry.new (names.map MemoryDevice.new), none⟩ := by
      intro state hstate
      exact absurd hstate (some_ne_none state).symm
    exact ⟨nofun, hfile⟩
  | @apply s plan _ ih =>
    have hprog := always_apply cfg s.reconciler plan ih.1
    have hreported : Reported s.reconciler plan (s.outcome cfg env plan).1 := hprog.post s.world
    have hfile : FaithfulFile (s.outcome cfg env plan).2 := hprog.world FaithfulFile.handle ih.2
    exact ⟨hreported.faithful, hfile⟩
  | reload _ hfile ih => exact ⟨ih.2 _ hfile, ih.2⟩
  | @stop s plan calls _ ih =>
    have hfile : FaithfulFile (s.stopped cfg env plan calls) :=
      (always_apply cfg s.reconciler plan ih.1).dropped FaithfulFile.handle calls ih.2
    refine ⟨?_, hfile⟩
    show Faithful (load (s.stopped cfg env plan calls).file).status
      (load (s.stopped cfg env plan calls).file).committedPlan
    cases hread : (s.stopped cfg env plan calls).file with
    | none => exact nofun
    | some state => exact hfile state hread

/-- When the plan has the id of the committed one, the status still says that this is committed,
and the plan is for the same topology version. -/
def Settled (r : Reconciler) (plan : RoutePlan) : Prop :=
  ∀ p, r.committedPlan = some p → p.id = plan.id →
    r.status.phase = .committed ∧ p.topologyVersion = plan.topologyVersion

/-- **A nil error comes with the status of the plan.** At any time in the life of a controller,
an `Apply` of a settled plan that returns a nil error returns and keeps a status with phase
*committed* that is about the plan, and keeps a committed plan with its id. -/
theorem nil_error_reports_committed (h : Lifetime cfg env s) (hsettled : Settled s.reconciler plan)
    (hok : (s.outcome cfg env plan).1.err = none) :
    ((s.outcome cfg env plan).1.status.phase = .committed ∧
        (s.outcome cfg env plan).1.status.planID = plan.id ∧
        (s.outcome cfg env plan).1.status.topologyVersion = plan.topologyVersion) ∧
      (s.apply cfg env plan).reconciler.status = (s.outcome cfg env plan).1.status ∧
      (s.apply cfg env plan).reconciler.committedPlan.map RoutePlan.id = some plan.id := by
  have hfaithful := h.faithful.1
  have hprog := always_apply cfg s.reconciler plan hfaithful
  have hreported : Reported s.reconciler plan (s.outcome cfg env plan).1 :=
    hprog.post (h := handle cfg env) s.world
  have hparts : ((s.outcome cfg env plan).1.status.phase = .committed ∧
      Names plan (s.outcome cfg env plan).1.status) ∧
      (s.outcome cfg env plan).1.reconciler.committedPlan.map RoutePlan.id = some plan.id := by
    rcases hreported.ok hok with ⟨hsame, hid⟩ | ⟨hphase, hnames, hplan⟩
    · -- the plan is in force: the status is the one found at entry
      obtain ⟨p, hp, hpid⟩ := map_eq_some_iff.mp hid
      obtain ⟨hphase, hversion⟩ := hsettled p hp hpid
      obtain ⟨p', hp', hnames⟩ := hfaithful hphase
      cases Option.some.inj (hp.symm.trans hp')
      have hplan : Names plan s.reconciler.status :=
        ⟨hnames.planID.trans hpid, hnames.topologyVersion.trans hversion⟩
      unfold Outcome.status
      rw [hsame]
      exact ⟨⟨hphase, hplan⟩, hid⟩
    · rw [hplan, map_some]
      exact ⟨⟨hphase, hnames⟩, rfl⟩
  obtain ⟨⟨hphase, hnames⟩, hid⟩ := hparts
  exact ⟨⟨hphase, hnames.planID, hnames.topologyVersion⟩, rfl, hid⟩

/-- **The record of a commit is true.** At any time in the life of a controller, also inside an
`Apply` and after one that fails, the state file and the status say *committed* only of the plan
that is kept with them. -/
theorem committed_is_kept (h : Lifetime cfg env s) (plan : RoutePlan) (calls : ℕ) :
    FaithfulFile (s.stopped cfg env plan calls) ∧ Faithful (s.outcome cfg env plan).1.status
      (s.outcome cfg env plan).1.reconciler.committedPlan := by
  have hprog := always_apply cfg s.reconciler plan h.faithful.1
  exact ⟨hprog.dropped FaithfulFile.handle calls h.faithful.2, (hprog.post s.world).faithful⟩

end Life

/-! ### Two plans -/

theorem freshPair_lifetime (env : ℕ → Env) : Lifetime pairConfig env freshPair :=
  .start ["a", "b"] 0

theorem committed_is_kept_pair :
    (freshPair.outcome pairConfig calm planAB).1.status.phase = .committed ∧
      Faithful (freshPair.outcome pairConfig calm planAB).1.status
        (freshPair.outcome pairConfig calm planAB).1.reconciler.committedPlan :=
  ⟨by decide +kernel, (committed_is_kept (freshPair_lifetime calm) planAB 0).2⟩

/-- The first plan is committed in the first 40 calls. The second plan fails when the second
router refuses its commit, at call 66. -/
def laterFault : ℕ → Env := fun t => { calm t with fault := if t = 66 then .commit else .none }

theorem nil_error_reports_committed_pair :
    ((freshPair.apply pairConfig calm planAB).outcome pairConfig calm planAB).1.err = none ∧
      ((freshPair.apply pairConfig calm planAB).outcome pairConfig calm planAB).1.status.phase =
        .committed := by
  have hok : ((freshPair.apply pairConfig calm planAB).outcome pairConfig calm planAB).1.err =
      none := by decide +kernel
  have hversion : (freshPair.apply pairConfig calm planAB).reconciler.committedPlan.map
      RoutePlan.topologyVersion = some 1 := by decide +kernel
  have hphase : (freshPair.apply pairConfig calm planAB).reconciler.status.phase = .committed := by
    decide +kernel
  have hsettled : Settled (freshPair.apply pairConfig calm planAB).reconciler planAB := by
    intro p hp _
    rw [hp] at hversion
    exact ⟨hphase, Option.some.inj hversion⟩
  exact ⟨hok, (nil_error_reports_committed ((freshPair_lifetime calm).apply planAB) hsettled
    hok).1.1⟩

/-- A plan is committed, another one is rolled back, and the first is applied again. It is found
in force. The error is nil, and the status says that the other plan was rolled back. -/
theorem noop_reports_rolled_back_plan :
    let committed := freshPair.apply pairConfig laterFault planAB
    let failed := committed.outcome pairConfig laterFault planB
    let final := (committed.apply pairConfig laterFault planB).outcome pairConfig laterFault planAB
    failed.1.err ≠ none ∧ final.1.err = none ∧
      final.1.reconciler.committedPlan.map RoutePlan.id = some planAB.id ∧
      final.1.status.phase = .rolledBack ∧ final.1.status.planID = planB.id := by
  decide +kernel

end StarFabric.Reconcile

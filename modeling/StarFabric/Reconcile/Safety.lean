import StarFabric.Reconcile.Apply

/-!
# Runs of the reconciler

A run moves by an `Apply` that ends, or by a process stop inside an `Apply` followed by a restart
from the state file (`Reachable`). `Safe` is the invariant: nothing is prepared, the routes of a
device are those of the plan whose id it reports (`KnownLedger`), and a device with routes is one
that the reconciler knows (`Owned`), unless a restart has lost it (`Recorded`).
-/

namespace StarFabric.Reconcile

open Go EffectProgram Adapter Function Option

/-! ### Devices report what they hold -/

def Known (plans : Set RoutePlan) (name planID : String) (routes : List RouteOperation) : Prop :=
  (planID = "" ∧ routes = []) ∨ ∃ plan ∈ plans, plan.id = planID ∧ routes.Perm (plan.share name)

/-- The routes of the device, and every table its history keeps, are known. -/
structure KnownLedger (plans : Set RoutePlan) (name : String) (l : Ledger) : Prop where
  current : Known plans name l.appliedPlanID l.routes
  history : ∀ id tx, l.history id = some tx → Known plans name tx.previousPlanID tx.previous

section Device

variable {plans : Set RoutePlan} {name : String} {plan : RoutePlan} {l₀ l : Ledger}

theorem KnownLedger.touched (h : KnownLedger plans name l₀) (hplan : plan ∈ plans)
    (ht : Touched (plan.forDevice name) l₀ l) : KnownLedger plans name l := by
  cases ht with
  | running _ => exact h
  | staged _ => exact ⟨h.current, h.history⟩
  | committed _ =>
    refine ⟨.inr ⟨plan, hplan, rfl, sortRoutes_perm _⟩, fun id tx htx => ?_⟩
    by_cases hid : id = (plan.forDevice name).id
    · subst hid
      change update _ _ _ _ = _ at htx
      rw [update_self] at htx
      cases htx
      exact h.current
    · change update _ _ _ _ = _ at htx
      rw [update_of_ne hid] at htx
      exact h.history id tx htx

theorem KnownLedger.rollback {planID : String} (h : KnownLedger plans name l) (hidle : Idle l)
    (happ : l.appliedPlanID = planID) : KnownLedger plans name (l.rollback planID) := by
  have hnone : l.prepared planID = none := congrFun hidle planID
  unfold Ledger.rollback
  rw [hnone]
  cases htx : l.history planID with
  | none => exact h
  | some tx =>
    refine ⟨?_, fun id tx' htx' => ?_⟩
    · dsimp only
      rw [if_pos happ]
      exact h.history planID tx htx
    · by_cases hid : id = planID
      · subst hid
        change update _ _ _ _ = _ at htx'
        exact absurd htx' (by simp)
      · change update _ _ _ _ = _ at htx'
        rw [update_of_ne hid] at htx'
        exact h.history id tx' htx'

theorem KnownLedger.undone (h : KnownLedger plans name l₀) (hidle : Idle l₀)
    (hu : Undone (plan.forDevice name) l₀ l) : KnownLedger plans name l := by
  obtain ⟨-, hroutes, happ, -, hhist⟩ | ⟨happ, rfl⟩ := hu.cases hidle
  · refine ⟨by rw [hroutes, happ]; exact h.current, fun id tx htx => ?_⟩
    rcases hhist with hhist | hhist
    · exact h.history id tx (hhist ▸ htx)
    · rw [hhist] at htx
      by_cases hid : id = (plan.forDevice name).id
      · rw [hid, update_self] at htx
        cases htx
      · rw [update_of_ne hid] at htx
        exact h.history id tx htx
  · exact h.rollback hidle happ

theorem Idle.rollback {planID : String} (hidle : Idle l) : Idle (l.rollback planID) := by
  have hnone : l.prepared planID = none := congrFun hidle planID
  unfold Ledger.rollback
  rw [hnone]
  dsimp only
  split
  · exact hidle
  · exact hidle

theorem Idle.undone (hidle : Idle l₀) (hu : Undone (plan.forDevice name) l₀ l) : Idle l := by
  obtain ⟨-, -, -, hprep, -⟩ | ⟨-, rfl⟩ := hu.cases hidle
  · exact hprep.trans hidle
  · exact hidle.rollback

theorem Idle.touched (hidle : Idle l₀) (ht : Touched (plan.forDevice name) l₀ l)
    (happ : l.appliedPlanID = plan.id) : Idle l := by
  cases ht with
  | running _ => exact hidle
  | staged hne => exact absurd happ hne
  | committed _ =>
    have hnone : l₀.prepared plan.id = none := congrFun hidle plan.id
    change update (update l₀.prepared plan.id _) plan.id none = _
    rw [ExceptFold.update_restore hnone]
    exact hidle

end Device

/-! ### The invariant -/

structure Safe (plans : Set RoutePlan) (s : System) : Prop where
  idle : AllIdle s.world.ledger
  known : ∀ n l, s.world.ledger n = some l → KnownLedger plans n l
  owned : ∀ n l, s.world.ledger n = some l → l.routes ≠ [] → Owned s.reconciler n

section Invariant

variable {cfg : Config} {env : ℕ → Env} {plans : Set RoutePlan} {plan : RoutePlan} {s : System}

theorem AllIdle.apply (hidle : AllIdle s.world.ledger) :
    AllIdle (s.apply cfg env plan).world.ledger := by
  intro n l hl
  change (s.outcome cfg env plan).2.ledger n = some l at hl
  cases s.outcome_applied cfg env plan hidle with
  | noop _ _ _ hsame _ => exact hidle n l (hsame ▸ hl)
  | committed _ _ names _ hhold hverified _ =>
    by_cases hn : n ∈ names
    · obtain ⟨l₀, l', h₀, hl', ht⟩ := hhold.touched n hn
      cases hl.symm.trans hl'
      obtain ⟨l', hl', happ, -⟩ := hverified n hn
      cases hl.symm.trans hl'
      exact (hidle n l₀ h₀).touched ht happ
    · exact hidle n l ((hhold.untouched n hn).symm.trans hl)
  | failed names _ _ hfail =>
    by_cases hn : n ∈ names
    · obtain ⟨l₀, l', h₀, hl', hu⟩ := hfail.rolledBack.undone n hn
      cases hl.symm.trans hl'
      exact (hidle n l₀ h₀).undone hu
    · exact hidle n l ((hfail.rolledBack.untouched n hn).symm.trans hl)

theorem Traced.known {before now : Ledgers} (h : Traced plan before now) (hplan : plan ∈ plans)
    (hidle : AllIdle before) (hknown : ∀ n l, before n = some l → KnownLedger plans n l) :
    ∀ n l, now n = some l → KnownLedger plans n l := by
  intro n l hl
  obtain ⟨l₀, h₀, rfl | ht | hu⟩ := h n l hl
  · exact hknown n l h₀
  · exact (hknown n l₀ h₀).touched hplan ht
  · exact (hknown n l₀ h₀).undone (hidle n l₀ h₀) hu

/-- A device that is rolled back and that the reconciler does not know has no routes.
It had none before; so it did not run the plan, which has routes for it, and its
rollback is exact. -/
theorem Safe.routes_nil_of_undone (hsafe : Safe plans s) (hinj : Set.InjOn RoutePlan.id plans)
    (hplan : plan ∈ plans) (hid : plan.id ≠ "") {n : String} {l₀ l : Ledger}
    (h₀ : s.world.ledger n = some l₀) (hu : Undone (plan.forDevice n) l₀ l)
    (hv : Visited s.reconciler plan n) (hnot : ¬ Owned s.reconciler n) : l.routes = [] := by
  have hnil : l₀.routes = [] := by
    by_contra hne
    exact hnot (hsafe.owned n l₀ h₀ hne)
  obtain ⟨-, hroutes, -⟩ | ⟨happ, -⟩ := hu.cases (hsafe.idle n l₀ h₀)
  · rw [hroutes, hnil]
  · rcases (hsafe.known n l₀ h₀).current with ⟨hempty, -⟩ | ⟨p, hp, hpid, hperm⟩
    · exact absurd (happ.symm.trans hempty) hid
    · obtain rfl := hinj hp hplan (hpid.trans happ)
      rw [hnil] at hperm
      exact absurd (hv.resolve_left hnot) (RoutePlan.share_eq_nil_iff.mp hperm.symm.eq_nil)

theorem Safe.apply (hsafe : Safe plans s) (hinj : Set.InjOn RoutePlan.id plans)
    (hplan : plan ∈ plans) : Safe plans (s.apply cfg env plan) := by
  have happlied := s.outcome_applied cfg env plan hsafe.idle
  refine ⟨hsafe.idle.apply, fun n l hl => ?_, fun n l hl hne => ?_⟩
  · exact happlied.traced.known hplan hsafe.idle hsafe.known n l hl
  · change (s.outcome cfg env plan).2.ledger n = some l at hl
    change Owned (s.outcome cfg env plan).1.reconciler n
    cases happlied with
    | noop _ hc hp hsame _ =>
      unfold Owned
      rw [hc, hp]
      exact hsafe.owned n l (hsame ▸ hl) hne
    | committed _ hc names hwithin hhold _ hshown =>
      by_cases hv : Visited s.reconciler plan n
      · rcases hshown n hv with hpend | ⟨l', hl', -, hperm⟩
        · exact .inr hpend
        · -- a device that shows the plan with routes is a device of the plan
          cases hl.symm.trans hl'
          refine .inl ⟨plan, hc, ?_⟩
          by_contra hnot
          rw [RoutePlan.share_eq_nil_iff.mpr hnot] at hperm
          exact hne hperm.eq_nil
      · have hsame := hhold.untouched n fun hn => hv (hwithin n hn)
        exact absurd (.inl (hsafe.owned n l (hsame.symm.trans hl) hne)) hv
    | failed names hwithin hid hfail =>
      unfold Owned
      rw [hfail.committedPlan, hfail.pendingDevices]
      by_contra hnot
      by_cases hn : n ∈ names
      · obtain ⟨l₀, l', h₀, hl', hu⟩ := hfail.rolledBack.undone n hn
        cases hl.symm.trans hl'
        exact hne (hsafe.routes_nil_of_undone hinj hplan
          (hid (List.ne_nil_of_mem hn)) h₀ hu (hwithin n hn) hnot)
      · have hsame := hfail.rolledBack.untouched n hn
        exact hnot (hsafe.owned n l (hsame.symm.trans hl) hne)

def Recorded (w : World) : Prop :=
  ∀ n l, w.ledger n = some l → l.routes ≠ [] → Owned (load w.file) n

theorem Safe.stop (hsafe : Safe plans s) (hplan : plan ∈ plans) {calls : ℕ}
    (hrec : Recorded (s.stopped cfg env plan calls)) :
    Safe plans (reload (s.stopped cfg env plan calls)) := by
  have hknown := (s.stopped_traced cfg env plan hsafe.idle calls).known hplan hsafe.idle hsafe.known
  refine ⟨fun n l hl => ?_, fun n l hl => ?_, fun n l hl hne => ?_⟩
  · obtain ⟨l', -, rfl⟩ := ledger_reload hl
    rfl
  · obtain ⟨l', hl', rfl⟩ := ledger_reload hl
    exact ⟨(hknown n l' hl').current, (hknown n l' hl').history⟩
  · obtain ⟨l', hl', rfl⟩ := ledger_reload hl
    exact hrec n l' hl' hne

/-- **An `Apply` that returns no error** leaves every device outside the pending set
with exactly its routes of the plan. -/
theorem Safe.exact (hsafe : Safe plans s) (hok : (s.outcome cfg env plan).1.err = none)
    {n : String} {l : Ledger} (hl : (s.outcome cfg env plan).2.ledger n = some l)
    (hpending : n ∉ (s.outcome cfg env plan).1.reconciler.pendingDevices) :
    l.routes.Perm (plan.share n) := by
  have hshown : ∀ o : Option Ledger, o = some l → Shows plan.id (plan.share n) o →
      l.routes.Perm (plan.share n) := by
    rintro o ho ⟨l', hl', -, hperm⟩
    cases ho.symm.trans hl'
    exact hperm
  -- a device that is not visited had no routes, and the plan has none for it
  have hrest : ¬ Visited s.reconciler plan n → s.world.ledger n = some l →
      l.routes.Perm (plan.share n) := by
    intro hv hsame
    have hnil : l.routes = [] := by
      by_contra hne
      exact hv (.inl (hsafe.owned n l hsame hne))
    rw [hnil, RoutePlan.share_eq_nil_iff.mpr fun hn => hv (.inr hn)]
  by_cases hv : Visited s.reconciler plan n
  · cases s.outcome_applied cfg env plan hsafe.idle with
    | noop _ _ _ _ h => exact hshown _ hl (h n hv)
    | committed _ _ _ _ _ _ h => exact hshown _ hl ((h n hv).resolve_left hpending)
    | failed _ _ _ hfail => exact absurd hok hfail.err
  · cases s.outcome_applied cfg env plan hsafe.idle with
    | noop _ _ _ hsame _ => exact hrest hv (hsame ▸ hl)
    | committed _ _ names hwithin hhold _ _ =>
      exact hrest hv ((hhold.untouched n fun hn => hv (hwithin n hn)).symm.trans hl)
    | failed _ _ _ hfail => exact absurd hok hfail.err

end Invariant

/-! ### Runs -/

/-- The systems of a run over the given plans, where a process stop leaves a world that
satisfies `restart`. -/
inductive Reachable (cfg : Config) (env : ℕ → Env) (plans : Set RoutePlan)
    (restart : World → Prop) : System → Prop where
  | start (names : List String) (r : Reconciler) (tick : ℕ) (file : Option PersistentState) :
      Reachable cfg env plans restart ⟨r, ⟨tick, Registry.new (names.map MemoryDevice.new), file⟩⟩
  | apply {s : System} {plan : RoutePlan} : Reachable cfg env plans restart s → plan ∈ plans →
      Reachable cfg env plans restart (s.apply cfg env plan)
  | stop {s : System} {plan : RoutePlan} {calls : ℕ} : Reachable cfg env plans restart s →
      plan ∈ plans → restart (s.stopped cfg env plan calls) →
      Reachable cfg env plans restart (reload (s.stopped cfg env plan calls))

section Runs

variable {cfg : Config} {env : ℕ → Env} {plans : Set RoutePlan} {plan : RoutePlan} {s : System}
  {restart : World → Prop}

theorem Reachable.idle (h : Reachable cfg env plans restart s) : AllIdle s.world.ledger := by
  induction h with
  | start names r tick file =>
    intro n l hl
    rw [(Registry.ledger_new hl).2]
    rfl
  | apply _ _ ih => exact ih.apply
  | stop _ _ _ _ =>
    intro n l hl
    obtain ⟨l', -, rfl⟩ := ledger_reload hl
    rfl

theorem Reachable.safe (hinj : Set.InjOn RoutePlan.id plans)
    (hrestart : ∀ w, restart w → Recorded w) (h : Reachable cfg env plans restart s) :
    Safe plans s := by
  induction h with
  | start names r tick file =>
    have hstart : Reachable cfg env plans restart
        ⟨r, ⟨tick, Registry.new (names.map MemoryDevice.new), file⟩⟩ := .start names r tick file
    refine ⟨hstart.idle, fun n l hl => ?_, fun n l hl hne => ?_⟩
    · rw [(Registry.ledger_new hl).2]
      exact ⟨.inl ⟨rfl, rfl⟩, nofun⟩
    · exact absurd (by rw [(Registry.ledger_new hl).2]) hne
  | apply _ hplan ih => exact ih.apply hinj hplan
  | stop _ hplan hstop ih => exact ih.stop hplan (hrestart _ hstop)

/-- **No stale routes.** Over every run of `Apply` calls, whatever the adversary does, an
`Apply` that returns no error leaves each registered device outside the pending set with
exactly the plan's routes for it. -/
theorem apply_leaves_exactly_plan (hinj : Set.InjOn RoutePlan.id plans)
    (h : Reachable cfg env plans (fun _ => False) s)
    (hok : (s.outcome cfg env plan).1.err = none) {n : String} {l : Ledger}
    (hl : (s.outcome cfg env plan).2.ledger n = some l)
    (hpending : n ∉ (s.outcome cfg env plan).1.reconciler.pendingDevices) :
    l.routes.Perm (plan.share n) :=
  (h.safe hinj fun _ h => h.elim).exact hok hl hpending

/-- **No stale routes after a process stop**, over every run in which each world that
the process is stopped in has its routes recorded. -/
theorem apply_after_stop_leaves_exactly_plan (hinj : Set.InjOn RoutePlan.id plans)
    (h : Reachable cfg env plans Recorded s)
    (hok : (s.outcome cfg env plan).1.err = none) {n : String} {l : Ledger}
    (hl : (s.outcome cfg env plan).2.ledger n = some l)
    (hpending : n ∉ (s.outcome cfg env plan).1.reconciler.pendingDevices) :
    l.routes.Perm (plan.share n) :=
  (h.safe hinj fun _ h => h).exact hok hl hpending

theorem Reachable.known (h : Reachable cfg env plans restart s) :
    ∀ n l, s.world.ledger n = some l → KnownLedger plans n l := by
  induction h with
  | start names r tick file =>
    intro n l hl
    rw [(Registry.ledger_new hl).2]
    exact ⟨.inl ⟨rfl, rfl⟩, nofun⟩
  | apply h hplan ih =>
    exact (System.outcome_applied _ cfg env _ h.idle).traced.known hplan h.idle ih
  | stop h hplan _ ih =>
    intro n l hl
    obtain ⟨l', hl', rfl⟩ := ledger_reload hl
    have hknown := (System.stopped_traced _ cfg env _ h.idle _).known hplan h.idle ih n l' hl'
    exact ⟨hknown.current, hknown.history⟩

/-- **Tables are never mixed.** At every point inside an `Apply`, over every run with process stops
anywhere, a device has exactly the routes that one single plan has for it, and reports that
plan's id; or it has none. -/
theorem tables_never_mixed (h : Reachable cfg env plans (fun _ => True) s) (hplan : plan ∈ plans)
    (calls : ℕ) {n : String} {l : Ledger} (hl : (s.stopped cfg env plan calls).ledger n = some l) :
    Known plans n l.appliedPlanID l.routes :=
  ((s.stopped_traced cfg env plan h.idle calls).known hplan h.idle h.known n l hl).current

end Runs

/-! ### Two routers -/

def pairTopology : TopologySnapshot where
  version := 1
  nodes := [{ id := "a", loopback := "10.0.0.1", enabled := true },
    { id := "b", loopback := "10.0.0.2", enabled := true }]
  links := [
    { id := "ab", source := "a", target := "b", adminUp := true, operationalUp := true,
      capacityBPS := 1 },
    { id := "ba", source := "b", target := "a", adminUp := true, operationalUp := true,
      capacityBPS := 1 }]

def routeA : RouteOperation where
  device := "a"
  routePrefix := "10.1.0.0/16"
  nextHop := "10.0.0.2"
  nextHopNode := "b"
  intentID := "i"
  pathRole := "primary"

def routeB : RouteOperation where
  device := "b"
  routePrefix := "10.2.0.0/16"
  nextHop := "10.0.0.1"
  nextHopNode := "a"
  intentID := "j"
  pathRole := "primary"

def planAB : RoutePlan where
  id := "ab"
  topologyVersion := 1
  expiresAt := 100
  routes := [routeA, routeB]

def planB : RoutePlan := { planAB with id := "b", routes := [routeB] }

def pairConfig : Config := Config.new 0 1 "state.json" false

def calm : ℕ → Env := fun _ => { topology := pairTopology, now := 10 }

def freshPair : System := ⟨{}, ⟨0, Registry.new (["a", "b"].map MemoryDevice.new), none⟩⟩

theorem freshPair_reachable (env : ℕ → Env) (plans : Set RoutePlan) (restart : World → Prop) :
    Reachable pairConfig env plans restart freshPair :=
  .start ["a", "b"] {} 0 none

theorem planIDs_injOn : Set.InjOn RoutePlan.id {planAB, planB} := by
  rintro p (rfl | rfl) q (rfl | rfl) h
  · rfl
  · exact absurd h (by decide)
  · exact absurd h (by decide)
  · rfl

theorem apply_leaves_exactly_plan_pair :
    ((freshPair.apply pairConfig calm planAB).outcome pairConfig calm planB).1.err = none ∧
      ∃ l, ((freshPair.apply pairConfig calm planAB).outcome pairConfig calm planB).2.ledger "a" =
        some l ∧ l.routes.Perm (planB.share "a") := by
  have hok : ((freshPair.apply pairConfig calm planAB).outcome pairConfig calm planB).1.err =
      none := by decide +kernel
  obtain ⟨l, hl⟩ := isSome_iff_exists.mp (by decide +kernel :
    (((freshPair.apply pairConfig calm planAB).outcome pairConfig calm planB).2.ledger "a").isSome)
  exact ⟨hok, l, hl, apply_leaves_exactly_plan planIDs_injOn
    ((freshPair_reachable calm {planAB, planB} _).apply (.inl rfl)) hok hl (by decide +kernel)⟩

theorem tables_never_mixed_pair :
    ((freshPair.stopped pairConfig calm planAB 19).ledger "a").isSome ∧
      ∀ l ∈ (freshPair.stopped pairConfig calm planAB 19).ledger "a",
        Known {planAB} "a" l.appliedPlanID l.routes :=
  ⟨by decide +kernel, fun _ =>
    tables_never_mixed (freshPair_reachable calm _ _) (Set.mem_singleton _) 19⟩

/-- A plan for both routers is committed, and the process stops while it cleans up the
first router. Both are recorded. -/
theorem stopped_cleanup_recorded :
    Recorded ((freshPair.apply pairConfig calm planAB).stopped pairConfig calm planB 19) := by
  intro n l hl _
  have hidle := (freshPair_reachable calm {planAB} fun _ => False).idle
  obtain ⟨l₁, h₁, -⟩ := (freshPair.apply pairConfig calm planAB).stopped_traced pairConfig calm
    planB hidle.apply 19 n l hl
  obtain ⟨l₀, h₀, -⟩ := (freshPair.outcome_applied pairConfig calm planAB hidle).traced n l₁ h₁
  have hname : n ∈ ["a", "b"] := (Registry.ledger_new h₀).1
  have hroutes : (load ((freshPair.apply pairConfig calm planAB).stopped pairConfig calm planB
      19).file).committedPlan.map RoutePlan.routes = some [routeA, routeB] := by decide +kernel
  obtain ⟨plan, hplan, hplanRoutes⟩ := map_eq_some_iff.mp hroutes
  exact .inl ⟨plan, hplan, hplanRoutes ▸ hname⟩

theorem apply_after_stop_leaves_exactly_plan_pair :
    let s := reload ((freshPair.apply pairConfig calm planAB).stopped pairConfig calm planB 19)
    (s.outcome pairConfig calm planB).1.err = none ∧
      ∃ l, (s.outcome pairConfig calm planB).2.ledger "a" = some l ∧
        l.routes.Perm (planB.share "a") := by
  intro s
  have hok : (s.outcome pairConfig calm planB).1.err = none := by decide +kernel
  obtain ⟨l, hl⟩ := isSome_iff_exists.mp (by decide +kernel :
    ((s.outcome pairConfig calm planB).2.ledger "a").isSome)
  have hreach : Reachable pairConfig calm {planAB, planB} Recorded s :=
    ((freshPair_reachable calm {planAB, planB} _).apply (.inl rfl)).stop (.inr rfl)
      stopped_cleanup_recorded
  exact ⟨hok, l, hl, apply_after_stop_leaves_exactly_plan planIDs_injOn hreach hok hl
    (by decide +kernel)⟩

/-- The process stops after the commit on the first router. Its state file does not
exist, the next plan succeeds without visiting that router, and the routes of the
interrupted plan stay. -/
theorem stopped_commit_leaves_routes :
    let stopped := freshPair.stopped pairConfig calm planAB 19
    let final := (reload stopped).outcome pairConfig calm planB
    final.1.err = none ∧ final.1.reconciler.pendingDevices = [] ∧ planB.share "a" = [] ∧
      (final.2.ledger "a").map Ledger.routes = some [routeA] := by
  decide +kernel

end StarFabric.Reconcile

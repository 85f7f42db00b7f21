import StarFabric.Reconcile.Progress
import StarFabric.Reconcile.Safety
import StarFabric.Verification

/-!
# A device that is out of reach

`Apply` defers the cleanup of a device whose health check fails. But the verifier that `App` wires
into the reconciler reads the state of every registered device first. If the state of the device
cannot be read either, no plan is committed at all (`outage`). Here each device has a mood of its
own.
-/

namespace StarFabric

namespace Adapter.MemoryDevice

/-! ### Devices that do what they are asked -/

section

variable {d : MemoryDevice} (hhealthy : d.healthy = true) (hfault : d.fault = .none)

include hhealthy hfault

theorem health_up : d.health = .ok () := by
  unfold health
  rw [if_neg (by simp [hhealthy, hfault])]

theorem prepare_up {plan : RoutePlan} (hid : plan.id ≠ "")
    (hroutes : ∀ route ∈ plan.routes, route.device = d.name) :
    d.prepare plan = (.ok (), { d with toLedger := d.toLedger.prepare plan }) := by
  have hfind : (plan.routes.find? fun route => route.device ≠ d.name) = none := by
    rw [List.find?_eq_none]
    intro route hroute
    simp [hroutes route hroute]
  unfold prepare Ledger.prepare
  rw [if_neg (by simp [hhealthy]), if_neg (by simp [hfault]), if_neg hid, hfind]
  by_cases happlied : plan.id = d.appliedPlanID
  · rw [if_pos happlied, if_pos (.inl happlied)]
  · rw [if_neg happlied]
    by_cases hprepared : (d.prepared plan.id).isSome = true
    · rw [if_pos hprepared, if_pos (.inr hprepared)]
    · rw [if_neg hprepared, if_neg (not_or.mpr ⟨happlied, hprepared⟩)]

theorem commit_up {planID : String} (hcommittable : d.toLedger.Committable planID) :
    d.commit planID = (.ok (), { d with toLedger := d.toLedger.commit planID }) := by
  unfold commit Ledger.commit
  rw [if_neg (by simp [hhealthy])]
  by_cases happlied : planID = d.appliedPlanID
  · rw [if_pos happlied, if_pos happlied]
  · obtain ⟨tx, htx⟩ := Option.isSome_iff_exists.mp (hcommittable.resolve_left happlied)
    rw [if_neg happlied, if_neg happlied, if_neg (by simp [hfault]), htx]

end

theorem health_down {d : MemoryDevice} (h : d.healthy = false) : d.health = .error errUnhealthy :=
  if_pos (.inl h)

end Adapter.MemoryDevice

namespace Reconcile

open Adapter EffectProgram Go List Option Verification

/-! ### The wiring of the application -/

def Call.device : Call → Option String
  | .health name | .prepare name _ | .commit name _ | .rollback name _ | .state name => some name
  | _ => none

/-- The world in which the adversary gives each device a mood of its own. -/
def handleEach (cfg : Config) (env : Option String → ℕ → Env) : Handler iface World :=
  fun c w => handle cfg (env c.device) c w

/-- The data-plane verifier of `New`, `Multi{NewRouteProbe(registry, store.Snapshot)}`, in the place
of the verdict of the adversary. -/
def wired (h : Handler iface World) (sort : SortSlice byMetric) (names : List String) :
    Handler iface World
  | .verify plan, w => Prog.run h (Multi.verify [RouteProbe.verify sort names] plan) w
  | .topology, w => h .topology w
  | .now, w => h .now w
  | .done, w => h .done w
  | .order, w => h .order w
  | .get name, w => h (.get name) w
  | .health name, w => h (.health name) w
  | .prepare name plan, w => h (.prepare name plan) w
  | .commit name planID, w => h (.commit name planID) w
  | .rollback name planID, w => h (.rollback name planID) w
  | .state name, w => h (.state name) w
  | .write state, w => h (.write state) w

instance (cfg : Config) (env : Option String → ℕ → Env) : Truthful (handleEach cfg env) where
  quiet hc := handle_quiet hc
  get := handle_get
  state hs := handle_state hs

section Wired

variable {h : Handler iface World} [Truthful h] {sort : SortSlice byMetric} {names : List String}
  {plan : RoutePlan}

theorem wired_verify {S : String → Except String DeviceState → Prop} {w : World}
    (hS : ∀ name ∈ names, ∀ w' : World, w'.ledger = w.ledger → S name (h (.state name) w').1) :
    (wired h sort names (.verify plan) w).2.ledger = w.ledger ∧
      (((∃ e, (wired h sort names (.verify plan) w).1 = .error e) ∧
          ∃ name ∈ names, ∃ e, S name (.error e)) ∨
        ∃ w₁ w₂ states, Observed S names (.ok states) ∧ (wired h sort names (.verify plan) w).1 =
          forward sort (h .topology w₁).1 (h .now w₂).1 states plan.intents) := by
  have hprobe : HTriple h (fun _ => True) (· = w.ledger) (RouteProbe.verify sort names plan) _ :=
    triple_probe trivial hS
  have hpost := (hprobe w rfl).post
  rw [← run_multi] at hpost
  exact hpost

instance : Truthful (wired h sort names) where
  quiet {c w} hc := by
    cases c with
    | verify plan =>
      have hS : ∀ name ∈ names, ∀ w' : World, w'.ledger = w.ledger → True := fun _ _ _ _ => trivial
      exact (wired_verify (S := fun _ _ => True) hS).1
    | prepare name plan => exact hc.elim
    | commit name planID => exact hc.elim
    | rollback name planID => exact hc.elim
    | topology => exact Truthful.quiet (h := h) (c := .topology) trivial
    | now => exact Truthful.quiet (h := h) (c := .now) trivial
    | done => exact Truthful.quiet (h := h) (c := .done) trivial
    | order => exact Truthful.quiet (h := h) (c := .order) trivial
    | get name => exact Truthful.quiet (h := h) (c := .get name) trivial
    | health name => exact Truthful.quiet (h := h) (c := .health name) trivial
    | state name => exact Truthful.quiet (h := h) (c := .state name) trivial
    | write state => exact Truthful.quiet (h := h) (c := .write state) trivial
  get := Truthful.get (h := h)
  state := Truthful.state (h := h)

end Wired

/-- `Apply` with the verifier of the application. -/
def applyWired (cfg : Config) (sort : SortSlice byMetric) (names : List String) (r : Reconciler)
    (plan : RoutePlan) (w : World) (env : Option String → ℕ → Env) : Outcome × World :=
  Prog.run (wired (handleEach cfg env) sort names) (apply cfg r plan) w

/-! ### Devices that are down -/

/-- An `Apply` of a new plan in which some devices are down that have no route in the plan, and
everything else succeeds. -/
structure Degraded (r : Reconciler) (plan : RoutePlan) (w : World) (names : List String)
    (env : Option String → ℕ → Env) (down : String → Bool) : Prop where
  isNew : r.committedPlan.map RoutePlan.id ≠ some plan.id
  registered : ∀ n, n ∈ names ↔ (w.ledger n).isSome
  named : "" ∉ names
  visited : ∀ n, Visited r plan n → n ∈ names
  ready : ∀ n l, w.ledger n = some l → Ready plan n l
  valid : ∀ s t, Validation.plan plan (env none s).topology (env none t).now = .ok ()
  file : ∀ t, (env none t).writeFault = none
  up : ∀ n t, down n = false → (env (some n) t).healthy = true ∧ (env (some n) t).fault = .none
  ill : ∀ n t, down n = true → (env (some n) t).healthy = false
  unused : ∀ n, down n = true → Owned r n ∧ plan.share n = []

section Degraded

variable {cfg : Config} {r : Reconciler} {plan : RoutePlan} {w : World} {names : List String}
  {env : Option String → ℕ → Env} {down : String → Bool} {sort : SortSlice byMetric}

variable {n : String} {l : Ledger}

theorem Degraded.onDevice (h : Degraded r plan w names env down) {w' : World} {α : Type}
    (f : MemoryDevice → Except String α × MemoryDevice) (hdown : down n = false)
    (hl : w'.ledger n = some l) :
    ∃ d : MemoryDevice, (d.toLedger = l ∧ d.name = n ∧ d.healthy = true ∧ d.fault = .none) ∧
      (World.onDevice { w' with tick := w'.tick + 1 } (env (some n) w'.tick) n f).1 = (f d).1 ∧
      (World.onDevice { w' with tick := w'.tick + 1 } (env (some n) w'.tick) n f).2.ledger =
        Function.update w'.ledger n (some (f d).2.toLedger) := by
  obtain ⟨d, ⟨hd, hname, hhealthy, hfault⟩, hres⟩ := onDevice_mood
    (w := { w' with tick := w'.tick + 1 }) (e := env (some n) w'.tick) (f := f) hl
  obtain ⟨hup, hnone⟩ := h.up n w'.tick hdown
  exact ⟨d, ⟨hd, hname, hhealthy.trans hup, hfault.trans hnone⟩, hres⟩

theorem Degraded.id_ne (h : Degraded r plan w names env down) : plan.id ≠ "" :=
  (Validation.plan_eq_ok_iff.mp (h.valid 0 0)).id_ne

theorem Degraded.serves (h : Degraded r plan w names env down) :
    Serves (wired (handleEach cfg env) sort names) plan down where
  valid w w' := h.valid w.tick w'.tick
  health {n w l} hdown hl := by
    obtain ⟨d, ⟨-, -, hhealthy, hfault⟩, hres, -⟩ := h.onDevice (fun d => (d.health, d)) hdown hl
    exact hres.trans (MemoryDevice.health_up hhealthy hfault)
  ill {n w} hdown := by
    cases hl : w.ledger n with
    | none =>
      exact ⟨_, congrArg Prod.fst (onDevice_none (w := { w with tick := w.tick + 1 })
        (e := env (some n) w.tick) (f := fun d : MemoryDevice => (d.health, d)) hl)⟩
    | some l =>
      obtain ⟨d, ⟨-, -, hhealthy, -⟩, hres, -⟩ := onDevice_mood
        (w := { w with tick := w.tick + 1 }) (e := env (some n) w.tick)
        (f := fun d : MemoryDevice => (d.health, d)) hl
      exact ⟨_, hres.trans (MemoryDevice.health_down (hhealthy.trans (h.ill n w.tick hdown)))⟩
  state {n w l} hdown hl := by
    obtain ⟨d, ⟨-, -, hhealthy, hfault⟩, hres, -⟩ := h.onDevice (fun d => (d.state, d)) hdown hl
    exact ⟨_, hres.trans (if_neg (by rw [hfault]; exact nofun)), hhealthy⟩
  prepare {n w l} hdown hl := by
    obtain ⟨d, ⟨rfl, rfl, hhealthy, hfault⟩, hres, hledger⟩ :=
      h.onDevice (fun d => d.prepare (plan.forDevice n)) hdown hl
    have hroutes : ∀ route ∈ (plan.forDevice d.name).routes, route.device = d.name :=
      fun route hroute => by simpa using (mem_filter.mp hroute).2
    have hid : (plan.forDevice d.name).id ≠ "" := h.id_ne
    rw [MemoryDevice.prepare_up hhealthy hfault hid hroutes] at hres hledger
    exact ⟨hres, hledger⟩
  commit {n w l} hdown hl hcommittable := by
    obtain ⟨d, ⟨rfl, -, hhealthy, hfault⟩, hres, hledger⟩ :=
      h.onDevice (fun d => d.commit plan.id) hdown hl
    rw [MemoryDevice.commit_up hhealthy hfault hcommittable] at hres hledger
    exact ⟨hres, hledger⟩
  write state w := by
    show writeResult
      (Durable.writeFile cfg.statePath state (env none w.tick).writeFault w.file).1 = _
    rw [h.file]
    unfold Durable.writeFile
    split_ifs
    · rfl
    · rfl

/-! ### What the probe sees -/

def report (name : String) (l : Ledger) : DeviceState where
  device := name
  healthy := true
  appliedPlanID := l.appliedPlanID
  routes := l.routes

def reports (names : List String) (L : Ledgers) : States :=
  names.filterMap fun n => (L n).map fun l => (n, report n l)

variable {L : Ledgers}

theorem lookup_reports :
    (reports names L).lookup n = if n ∈ names then (L n).map (report n) else none := by
  induction names with
  | nil => rfl
  | cons m names ih =>
    cases hm : L m with
    | none =>
      have hskip : reports (m :: names) L = reports names L := filterMap_cons_none (by rw [hm]; rfl)
      rw [hskip, ih]
      by_cases hn : n = m
      · rw [hn, hm]
        simp
      · simp [hn]
    | some l =>
      have hcons : reports (m :: names) L = (m, report m l) :: reports names L :=
        filterMap_cons_some (by rw [hm]; rfl)
      rw [hcons]
      by_cases hn : n = m
      · subst hn
        rw [lookup_cons_self, if_pos mem_cons_self, hm]
        rfl
      · rw [lookup_cons, beq_false_of_ne hn]
        rw [ih]
        simp [hn]

theorem settledOn_filter (down : String → Bool) (hup : down n = false) :
    settledOn plan (names.filter (!down ·)) L n = settledOn plan names L n := by
  unfold settledOn applyOn
  simp [hup]

theorem isSome_settledOn (h : (L n).isSome) : (settledOn plan names L n).isSome := by
  unfold settledOn applyOn
  split_ifs
  · rw [isSome_map]
    exact h
  · exact h

/-- What the probe may see when the devices that are down report something. -/
def Seen (down : String → Bool) (L : Ledgers) (n : String) (r : Except String DeviceState) : Prop :=
  (∃ s, r = .ok s) ∧ (down n = false → ∃ l, L n = some l ∧ r = .ok (report n l))

variable (h : Degraded r plan w names env down)
include h

theorem Degraded.devices : ∀ route ∈ plan.routes, route.device ≠ "" := by
  intro route hroute hempty
  exact h.named (hempty ▸ h.visited _ (.inr (mem_map_of_mem hroute)))

theorem Degraded.prepared : Prepared plan down w.ledger (visitedNames r plan) := by
  refine ⟨fun n hn => ?_, fun n _ hdown => (h.unused n hdown).2⟩
  have hvisited := (mem_visitedNames h.devices).mp hn
  obtain ⟨l, hl⟩ := isSome_iff_exists.mp ((h.registered n).mp (h.visited n hvisited))
  exact ⟨l, hl, h.ready n l hl⟩

theorem Degraded.routes_eq_nil (hdown : down n = true)
    (hl : settledOn plan (visitedNames r plan) w.ledger n = some l) :
    l.routes = [] := by
  obtain ⟨howned, hshare⟩ := h.unused n hdown
  have hn : n ∈ visitedNames r plan := (mem_visitedNames h.devices).mpr (.inl howned)
  obtain ⟨l₀, hl₀, hready⟩ := h.prepared.there n hn
  have hsettled : settledOn plan (visitedNames r plan) w.ledger n =
      some (l₀.settle (plan.forDevice n)) := (applyOn_of_mem hn).trans (by rw [hl₀]; rfl)
  cases hl.symm.trans hsettled
  have hroutes := hready.settle.2
  rw [hshare] at hroutes
  exact (perm_of_sortRoutes_eq hroutes).eq_nil

/-- **Devices that are down do not block a plan** as long as they report their state: the plan is
committed, and they become pending. -/
theorem Degraded.committed (cfg : Config) (hread : ∀ n t, (env (some n) t).fault ≠ .state)
    (hforward : ∀ s t, forward sort (env none s).topology (env none t).now (reports names (settledOn plan (visitedNames r plan) w.ledger)) plan.intents = .ok ()) :
    Committed plan down w.ledger (visitedNames r plan) (applyWired cfg sort names r plan w env).1
      (applyWired cfg sort names r plan w env).2.ledger := by
  refine ((ends_apply h.serves h.isNew h.devices h.prepared fun w' hw' => ?_) w rfl).post
  have hseen : ∀ n ∈ names, ∀ w'' : World, w''.ledger = w'.ledger →
      Seen down w'.ledger n (handleEach cfg env (.state n) w'').1 := by
    intro n hn w'' hsame
    have hsome : (w'.ledger n).isSome := by
      rw [hw']
      exact isSome_settledOn ((h.registered n).mp hn)
    obtain ⟨l, hl⟩ := isSome_iff_exists.mp hsome
    obtain ⟨d, ⟨hd, hname, hhealthy, hfault⟩, hres, -⟩ := onDevice_mood
      (w := { w'' with tick := w''.tick + 1 }) (e := env (some n) w''.tick)
      (f := fun d : MemoryDevice => (d.state, d)) ((congrFun hsame n).trans hl)
    have hstate := hres.trans (if_neg (hfault ▸ hread n w''.tick))
    refine ⟨⟨_, hstate⟩, fun hdown => ⟨l, hl, hstate.trans ?_⟩⟩
    rw [hname, hhealthy, (h.up n w''.tick hdown).1]
    subst hd
    rfl
  obtain ⟨-, ⟨-, n, -, e, hbad⟩ | ⟨w₁, w₂, states, hstates, hverdict⟩⟩ :=
    wired_verify (S := Seen down w'.ledger) hseen
  · obtain ⟨s, hs⟩ := hbad.1
    cases hs
  · rw [hverdict]
    refine forward_congr (fun n => down n = true) ?_ ?_ (hforward w₁.tick w₂.tick)
    · intro n hdown state hstate
      rw [lookup_reports] at hstate
      split_ifs at hstate
      obtain ⟨l, hl, rfl⟩ := map_eq_some_iff.mp hstate
      exact h.routes_eq_nil hdown hl
    · intro n hup
      have hup : down n = false := Bool.eq_false_of_not_eq_true hup
      rw [lookup_reports]
      by_cases hn : n ∈ names
      · obtain ⟨state, hlookup, -, hreport⟩ := hstates.lookup hn
        obtain ⟨l, hl, hstate⟩ := hreport hup
        rw [if_pos hn, hlookup, ← settledOn_filter down hup, ← hw', hl]
        exact congrArg some (Except.ok.inj hstate)
      · rw [if_neg hn]
        exact hstates.lookup_eq_none hn

end Degraded

/-! ### One device out of reach -/

/-- A device `out` has routes of the committed plan and none of the new one, which is valid. Its
health check fails throughout, and with it `Prepare` and `Commit`. Everything else succeeds. -/
structure Outage (r : Reconciler) (plan : RoutePlan) (w : World) (names : List String)
    (env : Option String → ℕ → Env) (out : String) : Prop where
  committed : ∃ old, r.committedPlan = some old ∧ old.id ≠ plan.id ∧
    out ∈ old.routes.map RouteOperation.device
  unused : plan.share out = []
  registered : ∀ n, n ∈ names ↔ (w.ledger n).isSome
  named : "" ∉ names
  visited : ∀ n, Visited r plan n → n ∈ names
  ready : ∀ n l, w.ledger n = some l → Ready plan n l
  valid : ∀ s t, Validation.plan plan (env none s).topology (env none t).now = .ok ()
  file : ∀ t, (env none t).writeFault = none
  others : ∀ n t, n ≠ out → (env (some n) t).healthy = true ∧ (env (some n) t).fault = .none
  ill : ∀ t, (env (some out) t).healthy = false

def reachable (env : Option String → ℕ → Env) (out : String) : Option String → ℕ → Env :=
  fun device t =>
    if device = some out then { env device t with healthy := true, fault := .none }
    else env device t

section Outage

variable {cfg : Config} {r : Reconciler} {plan : RoutePlan} {w : World} {names : List String}
  {env : Option String → ℕ → Env} {out : String} {sort : SortSlice byMetric}

theorem Outage.isNew (h : Outage r plan w names env out) :
    r.committedPlan.map RoutePlan.id ≠ some plan.id := by
  obtain ⟨old, hold, hne, -⟩ := h.committed
  rw [hold]
  exact fun heq => hne (some.inj heq)

theorem Outage.owned (h : Outage r plan w names env out) : Owned r out := by
  obtain ⟨old, hold, -, hout⟩ := h.committed
  exact .inl ⟨old, hold, hout⟩

theorem Outage.degraded (h : Outage r plan w names env out) :
    Degraded r plan w names env (· == out) where
  isNew := h.isNew
  registered := h.registered
  named := h.named
  visited := h.visited
  ready := h.ready
  valid := h.valid
  file := h.file
  up n t hup := h.others n t (ne_of_beq_false hup)
  ill _ t hdown := beq_iff_eq.mp hdown ▸ h.ill t
  unused _ hdown := beq_iff_eq.mp hdown ▸ ⟨h.owned, h.unused⟩

theorem Outage.reachable (h : Outage r plan w names env out) :
    Degraded r plan w names (reachable env out) fun _ => false where
  isNew := h.isNew
  registered := h.registered
  named := h.named
  visited := h.visited
  ready := h.ready
  valid := h.valid
  file := h.file
  up n t _ := by
    unfold Reconcile.reachable
    split_ifs with hn
    · exact ⟨rfl, rfl⟩
    · exact h.others n t fun heq => hn (congrArg some heq)
  ill _ _ hdown := nomatch hdown
  unused _ hdown := nomatch hdown

theorem probe_error (hout : out ∈ names) (hunread : ∀ t, (env (some out) t).fault = .state)
    (w : World) : ∃ e, (wired (handleEach cfg env) sort names (.verify plan) w).1 = .error e := by
  have hstate : ∀ n ∈ names, ∀ w' : World, w'.ledger = w.ledger →
      (n = out → ∃ e, (handleEach cfg env (.state n) w').1 = .error e) := by
    rintro n - w' - rfl
    cases hl : w'.ledger n with
    | none =>
      exact ⟨_, congrArg Prod.fst (onDevice_none (w := { w' with tick := w'.tick + 1 })
        (e := env (some n) w'.tick) (f := fun d : MemoryDevice => (d.state, d)) hl)⟩
    | some l =>
      obtain ⟨d, ⟨-, -, -, hfault⟩, hres, -⟩ := onDevice_mood
        (w := { w' with tick := w'.tick + 1 }) (e := env (some n) w'.tick)
        (f := fun d : MemoryDevice => (d.state, d)) hl
      exact ⟨_, hres.trans (if_pos (hfault.trans (hunread w'.tick)))⟩
  obtain ⟨-, ⟨herror, -⟩ | ⟨-, -, states, hstates, -⟩⟩ :=
    wired_verify (S := fun n r => n = out → ∃ e, r = .error e) hstate
  · exact herror
  · obtain ⟨state, -, hread⟩ := hstates.lookup hout
    obtain ⟨e, he⟩ := hread rfl
    cases he

/-- **A device out of reach, and a plan that does not use it.** If the state of the device cannot be
read either, `Apply` returns an error. If it can be read, and the routes of the plan forward its
intents, then `Apply` returns nil, the device is pending, and every other device ends with what it
ends with when the device is within reach. -/
theorem outage (cfg : Config) (sort : SortSlice byMetric) (hverifier : cfg.verifier = true)
    (h : Outage r plan w names env out) :
    ((∀ t, (env (some out) t).fault = .state) →
        (applyWired cfg sort names r plan w env).1.err ≠ none) ∧
      ((∀ t, (env (some out) t).fault ≠ .state) →
        (∀ s t, forward sort (env none s).topology (env none t).now
          (reports names (settledOn plan (visitedNames r plan) w.ledger)) plan.intents = .ok ()) →
        (applyWired cfg sort names r plan w env).1.err = none ∧
          (applyWired cfg sort names r plan w env).1.reconciler.pendingDevices = [out] ∧
          (applyWired cfg sort names r plan w (reachable env out)).1.err = none ∧
          ∀ n, n ≠ out → (applyWired cfg sort names r plan w env).2.ledger n =
            (applyWired cfg sort names r plan w (reachable env out)).2.ledger n) := by
  have hout : Visited r plan out := .inl h.owned
  constructor
  · intro hunread
    have hrefused : Ends (wired (handleEach cfg env) sort names) (fun _ => True) (apply cfg r plan)
        fun o _ => o.err ≠ none :=
      ends_apply_error hverifier (probe_error (h.visited out hout) hunread) h.isNew
    exact (hrefused w trivial).post
  · intro hread hforward
    have hread' : ∀ n t, (env (some n) t).fault ≠ .state := by
      intro n t
      by_cases hn : n = out
      · exact hn ▸ hread t
      · rw [(h.others n t hn).2]
        exact nofun
    have hnear : ∀ n t, (reachable env out (some n) t).fault ≠ .state := by
      intro n t
      rw [(h.reachable.up n t rfl).2]
      exact nofun
    have hdown := h.degraded.committed cfg hread' hforward
    have hup := h.reachable.committed cfg hnear hforward
    refine ⟨hdown.err, ?_, hup.err, fun n hn => ?_⟩
    · have hmem : out ∈ visitedNames r plan := (mem_visitedNames h.degraded.devices).mpr hout
      rw [hdown.pendingDevices, filter_beq, count_eq_one_of_mem (nodup_visitedNames r plan) hmem]
      rfl
    · rw [hdown.ledger, hup.ledger, settledOn_filter (· == out) (beq_false_of_ne hn),
        settledOn_filter (fun _ => false) rfl]

end Outage

/-! ### Two routers -/

def intentB : RouteIntent where
  id := "j"
  source := "b"
  destination := "a"
  destinationPrefix := "10.2.0.0/16"

def planForB : RoutePlan := { planB with intents := [intentB] }

def routerAB (name : String) (route : RouteOperation) : MemoryDevice :=
  { MemoryDevice.new name with routes := [route], appliedPlanID := "ab" }

def pairAB : World := ⟨0, Registry.new [routerAB "a" routeA, routerAB "b" routeB], none⟩

def committedAB : Reconciler := { committedPlan := some planAB }

def firstDown (fault : FaultMode) : Option String → ℕ → Env := fun device t =>
  if device = some "a" then { calm t with healthy := false, fault := fault } else calm t

def verifiedConfig : Config := Config.new 0 1 "state.json" true

theorem byMetric_by : LessBy byMetric RouteOperation.metric := by
  intro a b
  exact decide_eq_true_iff

def stableByMetric : SortSlice byMetric := byMetric_by.rearranged id List.Perm.refl

theorem ledger_pairAB (n : String) : pairAB.ledger n =
    if n = "b" then some (routerAB "b" routeB).toLedger
    else if n = "a" then some (routerAB "a" routeA).toLedger else none := by
  by_cases hb : n = "b"
  · subst hb
    rfl
  · by_cases ha : n = "a"
    · subst ha
      rfl
    · rw [if_neg hb, if_neg ha]
      show (Function.update (Function.update (fun _ => none) "a" _) "b" _ n).map _ = none
      rw [Function.update_of_ne hb, Function.update_of_ne ha]
      rfl

theorem outage_firstDown (fault : FaultMode) :
    Outage committedAB planForB pairAB ["a", "b"] (firstDown fault) "a" where
  committed := ⟨planAB, rfl, by decide, by decide⟩
  unused := by decide
  registered n := by
    rw [ledger_pairAB]
    by_cases hb : n = "b"
    · simp [hb]
    · by_cases ha : n = "a"
      · simp [ha]
      · simp [ha, hb]
  named := by decide
  visited n hn := by
    rcases hn with (⟨plan, hplan, hn⟩ | hn) | hn
    · cases hplan
      exact hn
    · cases hn
    · exact mem_cons_of_mem _ hn
  ready n l hl := by
    rw [ledger_pairAB] at hl
    split_ifs at hl
    · cases hl
      exact ⟨rfl, fun h => absurd h (by decide)⟩
    · cases hl
      exact ⟨rfl, fun h => absurd h (by decide)⟩
  valid _ _ := by
    show Validation.plan planForB pairTopology 10 = .ok ()
    decide +kernel
  file _ := rfl
  others n t hn := by
    have hne : ¬ some n = some "a" := fun h => hn (some.inj h)
    unfold firstDown
    rw [if_neg hne]
    exact ⟨rfl, rfl⟩
  ill _ := rfl

theorem outage_readable :
    (applyWired verifiedConfig stableByMetric ["a", "b"] committedAB planForB pairAB
        (firstDown .none)).1.err = none ∧
      (applyWired verifiedConfig stableByMetric ["a", "b"] committedAB planForB pairAB
        (firstDown .none)).1.reconciler.pendingDevices = ["a"] := by
  have hforward : ∀ s t : ℕ, forward stableByMetric (firstDown .none none s).topology
      (firstDown .none none t).now (reports ["a", "b"] (settledOn planForB
        (visitedNames committedAB planForB) pairAB.ledger)) planForB.intents = .ok () := by
    intro s t
    show forward stableByMetric pairTopology 10 _ _ = .ok ()
    decide +kernel
  have hgoes := (outage verifiedConfig stableByMetric rfl (outage_firstDown .none)).2
    (fun _ => nofun) hforward
  exact ⟨hgoes.1, hgoes.2.1⟩

/-- The first router cannot be read, and the probe blocks a plan that does not use it. -/
theorem unreadable_device_blocks :
    Outage committedAB planForB pairAB ["a", "b"] (firstDown .state) "a" ∧
      (∀ t, (firstDown .state (some "a") t).fault = .state) ∧
      (applyWired verifiedConfig stableByMetric ["a", "b"] committedAB planForB pairAB
        (firstDown .state)).1.err =
          some "data-plane verification: read a: injected state read failure" := by
  exact ⟨outage_firstDown .state, fun _ => rfl, by decide +kernel⟩

end Reconcile
end StarFabric

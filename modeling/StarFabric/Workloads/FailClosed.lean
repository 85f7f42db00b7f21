import StarFabric.Workloads.Steering

/-!
# Steering fails closed, unless a list stops too late

A direction that is not ready must not have an encapsulating route (`FailsClosed`). A route is
withdrawn when `installed` has it, and that is a ledger which is only written when a whole list of
commands has come to its end. A list that stops after the first route of a direction leaves the
route behind (`route_left_behind`), and this is the only way (`fails_closed_iff`).
-/

namespace StarFabric.Workloads

open ExceptFold List
open Function (update_self update_of_ne)

/-! ### Routes of a direction -/

def slot (fabric : Fabric) (x : Flow × Direction) : ℕ × String × String :=
  (fabric.pid x.2.node, toString x.1.table, x.2.target ++ "/32")

def Encapsulates (fabric : Fabric) (kernel : Kernel) (x : Flow × Direction) : Prop :=
  ∃ args, kernel (slot fabric x) = some args ∧ args ≠ unreachable x.1 x.2

def State.status (s : State) (x : Flow × Direction) : Option Status :=
  (s.states x.2.id).map DirectionState.status

/-- A direction that the controller steers and that is not ready has no encapsulating route. -/
def FailsClosed (fabric : Fabric) (flows : List Flow) (s : State) : Prop :=
  ∀ x ∈ allDirections flows, x.1.control ≠ .distributed → s.status x ≠ some .ready →
    s.kernel (slot fabric x) = none ∨ s.kernel (slot fabric x) = some (unreachable x.1 x.2)

section Commands

variable {fabric : Fabric} {flows : List Flow} {x y : Flow × Direction}

variable {kernel : Kernel}

theorem not_encapsulates_iff : ¬ Encapsulates fabric kernel x ↔
    kernel (slot fabric x) = none ∨ kernel (slot fabric x) = some (unreachable x.1 x.2) := by
  unfold Encapsulates
  cases kernel (slot fabric x) with
  | none =>
    refine ⟨fun _ => .inl rfl, ?_⟩
    rintro - ⟨args, heq, -⟩
    cases heq
  | some args =>
    constructor
    · intro h
      exact .inr (congrArg some (not_not.mp fun hne => h ⟨args, rfl, hne⟩))
    · rintro (h | h) ⟨args', heq, hne⟩
      · cases h
      · cases heq
        exact hne (Option.some.inj h)

def Installs (x : Flow × Direction) (args : Args) : Prop :=
  ∃ tail, args = ["ip", "route", "replace", "table", toString x.1.table, x.2.target ++ "/32"] ++ tail

theorem Installs.ne_unreachable {args : Args} (h : Installs x args) : args ≠ unreachable x.1 x.2 := by
  obtain ⟨tail, rfl⟩ := h
  intro heq
  have hword := congrArg (fun args : Args => args[3]?) heq
  exact absurd (Option.some.inj hword) (by decide)

/-- What a job does for a direction, and how `apply_steering` records it. -/
def Fits (fabric : Fabric) (flows : List Flow) (job : Job) (a : String × Option Args) : Prop :=
  ∃ x ∈ allDirections flows, x.1.control ≠ .distributed ∧ a.1 = x.2.id ∧
    job.pid = fabric.pid x.2.node ∧
    ((a.2 = some job.args ∧ Installs x job.args) ∨ (a.2 = none ∧ job.args = unreachable x.1 x.2))

variable {job : Job}

theorem execute_installs (hpid : job.pid = fabric.pid x.2.node)
    (hargs : Installs x job.args ∨ job.args = unreachable x.1 x.2) (kernel : Kernel) :
    kernel.execute job = Function.update kernel (slot fabric x) (some job.args) := by
  have hslot : routeSlot job.args = some (toString x.1.table, x.2.target ++ "/32") := by
    obtain ⟨tail, heq⟩ | heq := hargs
    · rw [heq]
      rfl
    · rw [heq]
      rfl
  unfold Kernel.execute
  rw [hslot]
  rw [hpid]
  rfl

theorem slot_ne (h : WellFormed flows) (hx : x ∈ allDirections flows)
    (hy : y ∈ allDirections flows) (hsteered : x.1.control ≠ .distributed) (hne : x ≠ y) :
    slot fabric x ≠ slot fabric y := by
  intro heq
  have htable : x.1.table = y.1.table :=
    Wire.toString_injective (congrArg (fun slot => slot.2.1) heq)
  have htarget : x.2.target = y.2.target :=
    (String.append_left_inj _).mp (congrArg (fun slot => slot.2.2) heq)
  exact hne (h.slot_injective hx hy hsteered htable htarget)

/-- What is in place, as a map of the directions, is what the kernel has. -/
def Agrees (fabric : Fabric) (flows : List Flow) (actual : String → Bool) (kernel : Kernel) : Prop :=
  ∀ x ∈ allDirections flows, x.1.control ≠ .distributed →
    (actual x.2.id = true ↔ Encapsulates fabric kernel x)

variable {actual : String → Bool}

theorem Agrees.execute (hflows : WellFormed flows) (h : Agrees fabric flows actual kernel)
    {a : String × Option Args} (hfits : Fits fabric flows job a) :
    Agrees fabric flows (Function.update actual a.1 a.2.isSome) (kernel.execute job) := by
  obtain ⟨y, hy, hsteered, hkey, hpid, hargs⟩ := hfits
  have hexecute := execute_installs hpid (hargs.imp (fun h => h.2) (fun h => h.2)) kernel
  intro x hx hx'
  rw [hexecute, hkey]
  by_cases hxy : x = y
  · subst hxy
    rw [update_self]
    unfold Encapsulates
    rw [update_self]
    obtain ⟨hsome, hinstalls⟩ | ⟨hnone, hunreachable⟩ := hargs
    · rw [hsome]
      exact ⟨fun _ => ⟨job.args, rfl, hinstalls.ne_unreachable⟩, fun _ => rfl⟩
    · rw [hnone]
      refine ⟨nofun, ?_⟩
      rintro ⟨args, heq, hne⟩
      cases heq
      exact absurd hunreachable hne
  · have hid : x.2.id ≠ y.2.id := fun hid => hxy (hflows.direction_injective hx hy hid)
    rw [update_of_ne hid]
    unfold Encapsulates
    rw [update_of_ne (slot_ne hflows hx hy hx' hxy)]
    exact h x hx hx'

theorem Agrees.foldl (hflows : WellFormed flows) {operations : List Job}
    {applied : List (String × Option Args)}
    (hfits : List.Forall₂ (Fits fabric flows) operations applied)
    (h : Agrees fabric flows actual kernel) :
    Agrees fabric flows (Ledger.write actual (applied.map fun a => (a.1, a.2.isSome)))
      (operations.foldl Kernel.execute kernel) := by
  induction hfits generalizing actual kernel with
  | nil => exact h
  | cons hfirst _ ih => exact ih (h.execute hflows hfirst)

theorem isSome_record (installed : String → Option Args) (applied : List (String × Option Args))
    (key : String) :
    (record installed applied key).isSome =
      Ledger.write (fun k => (installed k).isSome) (applied.map fun a => (a.1, a.2.isSome)) key := by
  induction applied generalizing installed with
  | nil => rfl
  | cons a applied ih =>
    refine (ih (Function.update installed a.1 a.2)).trans ?_
    have hupdate : (fun k => (Function.update installed a.1 a.2 k).isSome) =
        Function.update (fun k => (installed k).isSome) a.1 a.2.isSome := by
      funext k
      by_cases hk : k = a.1
      · subst hk
        rw [update_self, update_self]
      · rw [update_of_ne hk, update_of_ne hk]
    rw [hupdate]
    rfl

end Commands

/-! ### The ledger of a state -/

/-- The state follows its log: `installed` is the ledger, and the kernel has what is in place. -/
structure Inv (fabric : Fabric) (flows : List Flow) (s : State) : Prop where
  proper : Ledger.Proper s.log
  recorded : ∀ key, (Ledger.run s.log).recorded key = (s.installed key).isSome
  actual : Agrees fabric flows (Ledger.run s.log).actual s.kernel
  owned : ∀ key, (s.installed key).isSome = true →
    ∃ x ∈ allDirections flows, x.1.control ≠ .distributed ∧ x.2.id = key

structure Prepared (fabric : Fabric) (flows : List Flow) (installed : String → Option Args)
    (operations : List Job) (applied : List (String × Option Args)) : Prop where
  fits : List.Forall₂ (Fits fabric flows) operations applied
  nodup : (applied.map Prod.fst).Nodup
  withdrawn : ∀ a ∈ applied, a.2 = none → (installed a.1).isSome = true

section Lists

variable {fabric : Fabric} {flows : List Flow} {s s' : State} {operations : List Job}
  {applied : List (String × Option Args)} {outcome : Outcome}

theorem Prepared.proper (h : Prepared fabric flows s.installed operations applied)
    (hs : Inv fabric flows s) (outcome : Outcome) :
    (batch operations applied outcome).Proper (Ledger.run s.log) := by
  refine ⟨?_, fun key hkey => ?_⟩
  · show ((applied.map fun a => (a.1, a.2.isSome)).map Prod.fst).Nodup
    rw [map_map]
    exact h.nodup
  · obtain ⟨a, ha, heq⟩ := mem_map.mp hkey
    have hid : a.1 = key := congrArg Prod.fst heq
    have hnone : a.2 = none := Option.isNone_iff_eq_none.mp
      (Option.isSome_eq_false_iff.mp (congrArg Prod.snd heq))
    rw [hs.recorded, ← hid]
    exact h.withdrawn a ha hnone

/-- The routes and what is written of them are as they were. -/
def State.Same (s s' : State) : Prop :=
  s'.installed = s.installed ∧ s'.kernel = s.kernel ∧ s'.log = s.log

theorem markFailed_foldl (error : Error) (keys : List String) (s : State) :
    s.Same (keys.foldl (State.markFailed error) s) := by
  induction keys generalizing s with
  | nil => exact ⟨rfl, rfl, rfl⟩
  | cons key keys ih => exact ih (s.markFailed error key)

variable {r : Except Error Unit}

/-- **How `apply_steering` ends**: everything is executed and recorded, or some of it is executed
and nothing is recorded. -/
theorem applySteering_cases (h : applySteering operations applied outcome s = (r, s')) :
    s'.log = s.log ++ [batch operations applied outcome] ∧
      ((r = .ok () ∧ (batch operations applied outcome).failed = none ∧ s'.states = s.states ∧
          s'.installed = record s.installed applied ∧
          s'.kernel = operations.foldl Kernel.execute s.kernel) ∨
        ∃ error n, r = .error error ∧ (batch operations applied outcome).failed = some n ∧
          s'.installed = s.installed ∧
          s'.kernel = (operations.take n).foldl Kernel.execute s.kernel) := by
  unfold applySteering at h
  unfold runJobs at h
  by_cases hempty : operations.isEmpty = true
  · rw [if_pos hempty] at h
    cases h
    refine ⟨rfl, .inl ⟨rfl, if_pos hempty, rfl, rfl, ?_⟩⟩
    rw [isEmpty_iff.mp hempty]
    rfl
  · rw [if_neg hempty] at h
    cases outcome with
    | done =>
      cases h
      exact ⟨rfl, .inl ⟨rfl, if_neg hempty, rfl, rfl, rfl⟩⟩
    | failed executed error =>
      dsimp only at h
      split_ifs at h
      · cases h
        obtain ⟨hinstalled, hkernel, hlog⟩ := markFailed_foldl error (applied.map Prod.fst) { s with
            kernel := (operations.take executed).foldl Kernel.execute s.kernel
            log := s.log ++ [batch operations applied (.failed executed error)] }
        exact ⟨hlog, .inr ⟨error, executed, rfl, if_neg hempty, hinstalled, hkernel⟩⟩
      · cases h
        exact ⟨rfl, .inr ⟨error, executed, rfl, if_neg hempty, rfl, rfl⟩⟩

theorem fits_of_mem (h : List.Forall₂ (Fits fabric flows) operations applied)
    {a : String × Option Args} (ha : a ∈ applied) : ∃ job, Fits fabric flows job a := by
  induction h with
  | nil => cases ha
  | cons hfirst _ ih =>
    obtain rfl | ha := mem_cons.mp ha
    · exact ⟨_, hfirst⟩
    · exact ih ha

theorem Inv.applySteering (hflows : WellFormed flows) (hs : Inv fabric flows s)
    (hlist : Prepared fabric flows s.installed operations applied)
    (h : applySteering operations applied outcome s = (r, s')) : Inv fabric flows s' := by
  obtain ⟨hlog, hcases⟩ := applySteering_cases h
  have hproper : Ledger.Proper s'.log :=
    hlog ▸ Ledger.proper_append.mpr ⟨hs.proper, hlist.proper hs outcome⟩
  have hrun : Ledger.run s'.log = (Ledger.run s.log).apply (batch operations applied outcome) := by
    rw [hlog, Ledger.run_append]
  unfold Ledger.State.apply Ledger.Batch.executed at hrun
  obtain ⟨-, hfailed, -, hinstalled, hkernel⟩ | ⟨error, n, -, hfailed, hinstalled, hkernel⟩ := hcases
  · rw [hfailed] at hrun
    refine ⟨hproper, fun key => ?_, ?_, ?_⟩
    · rw [hrun, hinstalled, isSome_record, ← funext hs.recorded]
      rfl
    · rw [hrun, hkernel]
      exact hs.actual.foldl hflows hlist.fits
    · intro key hkey
      rw [hinstalled] at hkey
      by_cases hmem : ∃ v, (key, v) ∈ applied
      · obtain ⟨v, hv⟩ := hmem
        obtain ⟨job, x, hx, hsteered, hid, -⟩ := fits_of_mem hlist.fits hv
        exact ⟨x, hx, hsteered, hid.symm⟩
      · rw [record, Ledger.write_of_not_mem fun v hv => hmem ⟨v, hv⟩] at hkey
        exact hs.owned key hkey
  · rw [hfailed] at hrun
    refine ⟨hproper, fun key => ?_, ?_, ?_⟩
    · rw [hrun, hinstalled, ← hs.recorded]
      rfl
    · rw [hrun, hkernel]
      have hagrees := hs.actual.foldl hflows (forall₂_take n hlist.fits)
      rw [map_take] at hagrees
      exact hagrees
    · rw [hinstalled]
      exact hs.owned

end Lists

/-! ### The loop over the directions -/

/-- What the loop has collected after some directions: a list for them, and a withdrawal for each
one that is not ready and has a route. -/
structure Collecting (fabric : Fabric) (flows : List Flow) (s : State)
    (done : List (Flow × Direction)) (acc : Collector) : Prop where
  installed : acc.state.installed = s.installed
  kernel : acc.state.kernel = s.kernel
  log : acc.state.log = s.log
  prepared : Prepared fabric flows s.installed acc.operations acc.applied
  visited : ∀ a ∈ acc.applied, ∃ x ∈ done, x.2.id = a.1
  closed : ∀ x ∈ done, acc.state.status x ≠ some .ready →
    record s.installed acc.applied x.2.id = none

section Loop

variable {fabric : Fabric} {flows : List Flow} {tick : Tick} {edges : Node → Node → Bool}
  {bgpError : Option String} {s : State} {done : List (Flow × Direction)} {acc acc' : Collector}
  {x : Flow × Direction}

variable {flow : Flow} {d : Direction} {nodes : List Node} {args : Args}

theorem installs_of_route (h : route fabric tick flow d nodes = .ok args) :
    Installs (flow, d) args := by
  obtain ⟨first, -, h⟩ := bind_eq_ok.mp h
  obtain ⟨interface, -, h⟩ := bind_eq_ok.mp h
  obtain ⟨hop, -, h⟩ := bind_eq_ok.mp h
  obtain ⟨tail, -, h⟩ := bind_eq_ok.mp h
  cases h
  exact ⟨tail, rfl⟩

theorem installs_of_steer {pcep pcep' : Pcep}
    (h : steer fabric tick edges bgpError flow d nodes pcep = (.ok (some args), pcep')) :
    Installs (flow, d) args := by
  unfold steer at h
  split at h
  · cases h
  · split at h
    · cases h
    · split_ifs at h
      · cases h
      · cases hroute : route fabric tick flow d nodes with
        | error error =>
          rw [hroute] at h
          cases h
        | ok args' =>
          rw [hroute] at h
          cases h
          exact installs_of_route hroute

theorem installs_of_resolve {pcep pcep' : Pcep} {state : DirectionState}
    (h : resolve fabric tick edges bgpError flow d pcep = (state, .ok (some args), pcep')) :
    flow.control ≠ .distributed ∧ Installs (flow, d) args := by
  unfold resolve at h
  split_ifs at h with hcontrol
  · cases hready : ospfReady tick flow d with
    | error error =>
      rw [hready] at h
      cases h
    | ok _ =>
      rw [hready] at h
      cases h
  · refine ⟨hcontrol, ?_⟩
    split at h
    · cases h
    · split at h
      · cases h
      · cases h
      · exact installs_of_steer (congrArg Prod.snd h)

section

variable (hflows : WellFormed flows) (h : Collecting fabric flows s done acc)
  (hdone : ∀ y ∈ done, y ∈ allDirections flows) (hx : x ∈ allDirections flows) (hnew : x ∉ done)
include hflows h hdone hx hnew

theorem Collecting.not_mem (v : Option Args) : (x.2.id, v) ∉ acc.applied := by
  intro hmem
  obtain ⟨y, hy, hid⟩ := h.visited _ hmem
  exact hnew (hflows.direction_injective (hdone y hy) hx hid ▸ hy)

theorem Collecting.leave (pcep : Pcep) (state : DirectionState)
    (hclosed : state.status ≠ .ready → s.installed x.2.id = none) :
    Collecting fabric flows s (done ++ [x]) { acc with state := { acc.state with
      pcep := pcep
      states := Function.update acc.state.states x.2.id (some state) } } := by
  refine ⟨h.installed, h.kernel, h.log, h.prepared, fun a ha => ?_, fun y hy hstatus => ?_⟩
  · obtain ⟨y, hy, hid⟩ := h.visited a ha
    exact ⟨y, mem_append_left _ hy, hid⟩
  · change (Function.update acc.state.states x.2.id (some state) y.2.id).map _ ≠ _ at hstatus
    obtain hy | hy := mem_append.mp hy
    · have hid : y.2.id ≠ x.2.id :=
        fun hid => hnew (hflows.direction_injective (hdone y hy) hx hid ▸ hy)
      rw [update_of_ne hid] at hstatus
      exact h.closed y hy hstatus
    · cases mem_singleton.mp hy
      rw [update_self] at hstatus
      rw [record, Ledger.write_of_not_mem (h.not_mem hflows hdone hx hnew)]
      exact hclosed fun hready => hstatus (congrArg some hready)

theorem Collecting.push (pcep : Pcep) (state : DirectionState) {job : Job} {v : Option Args}
    (hfits : Fits fabric flows job (x.2.id, v))
    (hwithdrawn : v = none → (s.installed x.2.id).isSome = true)
    (hclosed : state.status ≠ .ready → v = none) :
    Collecting fabric flows s (done ++ [x]) ⟨{ acc.state with
        pcep := pcep
        states := Function.update acc.state.states x.2.id (some state) },
      acc.operations ++ [job], acc.applied ++ [(x.2.id, v)]⟩ := by
  have hrecord : record s.installed (acc.applied ++ [(x.2.id, v)]) =
      Function.update (record s.installed acc.applied) x.2.id v := by
    unfold record Ledger.write
    rw [foldl_append]
    rfl
  refine ⟨h.installed, h.kernel, h.log, ⟨?_, ?_, fun a ha hnone => ?_⟩, fun a ha => ?_,
    fun y hy hstatus => ?_⟩
  · exact rel_append h.prepared.fits (List.Forall₂.cons hfits List.Forall₂.nil)
  · rw [map_append]
    refine List.Nodup.append h.prepared.nodup (nodup_singleton _) fun id hid hid' => ?_
    obtain ⟨a, ha, rfl⟩ := mem_map.mp hid
    refine h.not_mem hflows hdone hx hnew a.2 ?_
    rw [← show a.1 = x.2.id from mem_singleton.mp hid']
    exact ha
  · obtain ha | ha := mem_append.mp ha
    · exact h.prepared.withdrawn a ha hnone
    · cases mem_singleton.mp ha
      exact hwithdrawn hnone
  · obtain ha | ha := mem_append.mp ha
    · obtain ⟨y, hy, hid⟩ := h.visited a ha
      exact ⟨y, mem_append_left _ hy, hid⟩
    · cases mem_singleton.mp ha
      exact ⟨x, mem_append_right _ mem_cons_self, rfl⟩
  · change (Function.update acc.state.states x.2.id (some state) y.2.id).map _ ≠ _ at hstatus
    rw [hrecord]
    obtain hy | hy := mem_append.mp hy
    · have hid : y.2.id ≠ x.2.id :=
        fun hid => hnew (hflows.direction_injective (hdone y hy) hx hid ▸ hy)
      rw [update_of_ne hid] at hstatus ⊢
      exact h.closed y hy hstatus
    · cases mem_singleton.mp hy
      rw [update_self] at hstatus ⊢
      exact hclosed fun hready => hstatus (congrArg some hready)

variable {r : Except Error Unit}

theorem Collecting.visit (hs : Inv fabric flows s)
    (hvisit : visit fabric tick edges bgpError acc x = (r, acc')) :
    (r = .ok () → Collecting fabric flows s (done ++ [x]) acc') ∧ s.Same acc'.state := by
  obtain ⟨flow, d⟩ := x
  unfold Workloads.visit at hvisit
  dsimp only at hvisit
  generalize hresolve : resolve fabric tick _ bgpError flow d acc.state.pcep = result at hvisit
  obtain ⟨state, result, pcep⟩ := result
  dsimp only at hvisit
  cases result with
  | ok command =>
    cases command with
    | none =>
      cases hvisit
      refine ⟨fun _ => ?_, h.installed, h.kernel, h.log⟩
      exact h.leave hflows hdone hx hnew pcep { state with status := .ready }
        fun hne => absurd rfl hne
    | some args =>
      obtain ⟨hsteered, hinstalls⟩ := installs_of_resolve hresolve
      dsimp only at hvisit
      split_ifs at hvisit with hpush
      · cases hvisit
        refine ⟨fun _ => ?_, h.installed, h.kernel, h.log⟩
        refine h.push hflows hdone hx hnew pcep
          { state with status := .ready, steering := some args } ?_ nofun
          fun hne => absurd rfl hne
        exact ⟨(flow, d), hx, hsteered, rfl, rfl, .inl ⟨rfl, hinstalls⟩⟩
      · cases hvisit
        refine ⟨fun _ => ?_, h.installed, h.kernel, h.log⟩
        exact h.leave hflows hdone hx hnew pcep
          { state with status := .ready, steering := some args } fun hne => absurd rfl hne
  | error error =>
    dsimp only at hvisit
    split_ifs at hvisit with hcaught hsome
    · cases hvisit
      rw [h.installed] at hsome
      refine ⟨fun _ => ?_, h.installed, h.kernel, h.log⟩
      refine h.push hflows hdone hx hnew pcep _ ?_ (fun _ => hsome) fun _ => rfl
      obtain ⟨y, hy, hsteered, hid⟩ := hs.owned d.id hsome
      cases hflows.direction_injective hy hx hid
      exact ⟨(flow, d), hx, hsteered, rfl, rfl, .inr ⟨rfl, rfl⟩⟩
    · cases hvisit
      rw [h.installed] at hsome
      refine ⟨fun _ => ?_, h.installed, h.kernel, h.log⟩
      refine h.leave hflows hdone hx hnew pcep _ fun _ => ?_
      exact Option.not_isSome_iff_eq_none.mp hsome
    · cases hvisit
      exact ⟨nofun, h.installed, h.kernel, h.log⟩

end

theorem Collecting.visitAll (hflows : WellFormed flows) (hs : Inv fabric flows s)
    {rest : List (Flow × Direction)} (h : Collecting fabric flows s done acc)
    (hall : done ++ rest = allDirections flows)
    (hvisit : visitAll fabric tick edges bgpError rest acc = (r, acc')) :
    (r = .ok () → Collecting fabric flows s (allDirections flows) acc') ∧ s.Same acc'.state := by
  induction rest generalizing done acc with
  | nil =>
    rw [append_nil] at hall
    cases hvisit
    exact ⟨fun _ => hall ▸ h, h.installed, h.kernel, h.log⟩
  | cons x rest ih =>
    have hnodup : (done ++ x :: rest).Nodup := hall ▸ hflows.nodup_allDirections
    have hdone : ∀ y ∈ done, y ∈ allDirections flows :=
      fun y hy => hall ▸ mem_append_left _ hy
    have hx : x ∈ allDirections flows := hall ▸ mem_append_right _ mem_cons_self
    have hnew : x ∉ done :=
      fun hmem => (nodup_cons.mp (nodup_middle.mp hnodup)).1 (mem_append_left _ hmem)
    unfold Workloads.visitAll at hvisit
    generalize hfirst : Workloads.visit fabric tick edges bgpError acc x = result at hvisit
    obtain ⟨r', acc₁⟩ := result
    obtain ⟨hcollecting, hsame⟩ := h.visit hflows hdone hx hnew hs hfirst
    cases r' with
    | ok _ =>
      refine ih (hcollecting rfl) ?_ hvisit
      rw [append_assoc]
      exact hall
    | error error =>
      cases hvisit
      exact ⟨nofun, hsame⟩

end Loop

/-! ### After the loop -/

def Closed (flows : List Flow) (s : State) : Prop :=
  ∀ x ∈ allDirections flows, s.status x ≠ some .ready → s.installed x.2.id = none

section Rest

variable {fabric : Fabric} {flows : List Flow} {tick : Tick} {s s' : State}

theorem target_ne (target : String) :
    target ++ "/32" ≠ "table" ∧ target ++ "/32" ≠ "unreachable" := by
  have hlast : (target ++ "/32").toList.getLast? = some '2' := by
    rw [String.toList_append, getLast?_append]
    rfl
  constructor <;>
  · intro h
    rw [h] at hlast
    exact absurd hlast (by decide)

theorem routeSlot_of_target {target table : String} {tail : List String} (htable : target ≠ "table")
    (hunreachable : target ≠ "unreachable") :
    routeSlot ("ip" :: "route" :: "replace" :: target :: "table" :: table :: tail) =
      some (table, target) := by
  unfold routeSlot
  split
  · rename_i heq
    simp only [cons.injEq, true_and] at heq
    exact absurd heq.1 htable
  · rename_i heq
    simp only [cons.injEq, true_and] at heq
    exact absurd heq.1 hunreachable
  · rename_i heq
    simp only [cons.injEq, true_and] at heq
    rw [heq.1, heq.2.1]
  · rename_i hnone
    exact absurd rfl (hnone target table tail)

theorem routeSlot_of_n3Job {x : Node × Node × String × String} {job : Job}
    (h : n3Job fabric tick x = .ok job) : ∃ target, routeSlot job.args = some ("300", target) := by
  obtain ⟨node, remote, target, intent⟩ := x
  unfold n3Job at h
  dsimp only at h
  cases hroute : n3Route fabric tick node remote target intent with
  | error error =>
    rw [hroute] at h
    dsimp only at h
    split_ifs at h
    cases h
    exact ⟨target ++ "/32", rfl⟩
  | ok args =>
    rw [hroute] at h
    cases h
    obtain ⟨nodes, -, hroute⟩ := bind_eq_ok.mp hroute
    obtain ⟨active, -, hroute⟩ := bind_eq_ok.mp hroute
    split_ifs at hroute
    obtain ⟨sid, -, hroute⟩ := bind_eq_ok.mp hroute
    obtain ⟨path, -, hroute⟩ := bind_eq_ok.mp hroute
    split_ifs at hroute
    cases hroute
    refine ⟨target ++ "/32", ?_⟩
    obtain ⟨htable, hunreachable⟩ := target_ne target
    exact routeSlot_of_target htable hunreachable

theorem Inv.congr (h : Inv fabric flows s) (hinstalled : s'.installed = s.installed)
    (hlog : s'.log = s.log)
    (hkernel : ∀ x ∈ allDirections flows, s'.kernel (slot fabric x) = s.kernel (slot fabric x)) :
    Inv fabric flows s' := by
  refine ⟨hlog ▸ h.proper, fun key => ?_, fun x hx hsteered => ?_, ?_⟩
  · rw [hlog, hinstalled]
    exact h.recorded key
  · rw [hlog]
    unfold Encapsulates
    rw [hkernel x hx]
    exact h.actual x hx hsteered
  · rw [hinstalled]
    exact h.owned

theorem Inv.same (h : Inv fabric flows s) (hsame : s.Same s') : Inv fabric flows s' :=
  h.congr hsame.1 hsame.2.2 fun _ _ => congrFun hsame.2.1 _

variable {x : Flow × Direction}

theorem kernel_of_n3Jobs (hflows : WellFormed flows) {operations : List Job}
    (h : ∀ job ∈ operations, ∃ target, routeSlot job.args = some ("300", target)) (kernel : Kernel)
    (hx : x ∈ allDirections flows) :
    operations.foldl Kernel.execute kernel (slot fabric x) = kernel (slot fabric x) := by
  induction operations generalizing kernel with
  | nil => rfl
  | cons job operations ih =>
    obtain ⟨⟨target, hslot⟩, hrest⟩ := forall_mem_cons.mp h
    refine (ih hrest _).trans ?_
    unfold Kernel.execute
    rw [hslot]
    refine update_of_ne (fun heq => ?_) _ _
    have htable : toString x.1.table = toString 300 := congrArg (fun slot => slot.2.1) heq
    exact hflows.table_ne x.1 (mem_allDirections.mp hx).1 (Wire.toString_injective htable)

variable {r : Except Error Unit}

theorem updateN3_same (hflows : WellFormed flows) (h : updateN3 fabric tick s = (r, s')) :
    s'.installed = s.installed ∧ s'.states = s.states ∧ s'.log = s.log ∧
      ∀ x ∈ allDirections flows, s'.kernel (slot fabric x) = s.kernel (slot fabric x) := by
  unfold updateN3 at h
  split_ifs at h
  · cases h
    exact ⟨rfl, rfl, rfl, fun x _ => rfl⟩
  · cases hjobs : fabric.service.mapM (n3Job fabric tick) with
    | error error =>
      rw [hjobs] at h
      cases h
      exact ⟨rfl, rfl, rfl, fun x _ => rfl⟩
    | ok operations =>
      rw [hjobs] at h
      cases h
      refine ⟨rfl, rfl, rfl, fun x hx => ?_⟩
      have hn3 : ∀ job ∈ operations, ∃ target, routeSlot job.args = some ("300", target) := by
        intro job hjob
        obtain ⟨service, -, hjob⟩ := (mapM_ok hjobs).1 job hjob
        exact routeSlot_of_n3Job hjob
      show (runJobs s.kernel operations tick.n3).2 (slot fabric x) = _
      unfold runJobs
      split_ifs
      · rfl
      · cases tick.n3 with
        | done => exact kernel_of_n3Jobs hflows hn3 _ hx
        | failed executed error =>
          exact kernel_of_n3Jobs hflows (fun job hjob => hn3 job (mem_of_mem_take hjob)) _ hx

/-! ### Late policies -/

variable {round : Round}

theorem settled_eq_some {y : Flow × Direction × Args}
    (h : settled fabric tick round s x = .ok (some y)) :
    (y.1, y.2.1) = x ∧ Installs x y.2.2 ∧ (s.states x.2.id).isSome = true := by
  unfold settled at h
  cases hnodes : (s.states x.2.id).bind DirectionState.nodes with
  | none =>
    rw [hnodes] at h
    cases h
  | some nodes =>
    rw [hnodes] at h
    obtain ⟨state, hstate, -⟩ := Option.bind_eq_some_iff.mp hnodes
    obtain ⟨installed, -, h⟩ := bind_eq_ok.mp h
    split_ifs at h
    · obtain ⟨args, hargs, h⟩ := bind_eq_ok.mp h
      cases h
      exact ⟨rfl, installs_of_route hargs, Option.isSome_iff_exists.mpr ⟨state, hstate⟩⟩
    · cases h

variable {pending : List (Flow × Direction)} {results : List (Option (Flow × Direction × Args))}

theorem settled_sublist (h : pending.mapM (settled fabric tick round s) = .ok results) :
    (results.reduceOption.map fun y => (y.1, y.2.1)).Sublist pending := by
  induction pending generalizing results with
  | nil =>
    cases h
    exact List.Sublist.slnil
  | cons x pending ih =>
    rw [mapM_cons] at h
    obtain ⟨first, hfirst, h⟩ := bind_eq_ok.mp h
    obtain ⟨rest, hrest, h⟩ := bind_eq_ok.mp h
    cases h
    cases first with
    | none => exact (ih hrest).cons x
    | some y =>
      show ((y.1, y.2.1) :: rest.reduceOption.map fun y => (y.1, y.2.1)).Sublist _
      rw [(settled_eq_some hfirst).1]
      exact (ih hrest).cons_cons x

theorem markReady_foldl (ready : List (Flow × Direction × Args)) (s : State) :
    s.Same (ready.foldl State.markReady s) := by
  induction ready generalizing s with
  | nil => exact ⟨rfl, rfl, rfl⟩
  | cons x ready ih => exact ih (s.markReady x)

theorem status_markReady (s : State) (y : Flow × Direction × Args) (x : Flow × Direction) :
    (s.markReady y).status x =
      if y.2.1.id = x.2.id then (s.status x).map fun _ => .ready else s.status x := by
  unfold State.status State.markReady
  dsimp only
  split_ifs with hid
  · rw [hid, update_self, Option.map_map, Option.map_map]
    rfl
  · rw [update_of_ne fun heq => hid heq.symm]

variable {ready : List (Flow × Direction × Args)}

theorem status_of_settled
    (h : s.status x = some .ready ∨ (s.status x).isSome = true ∧ ∃ y ∈ ready, y.2.1.id = x.2.id) :
    (ready.foldl State.markReady s).status x = some .ready := by
  induction ready generalizing s with
  | nil =>
    obtain h | ⟨-, y, hy, -⟩ := h
    · exact h
    · cases hy
  | cons y ready ih =>
    refine ih ?_
    rw [status_markReady]
    split_ifs with hid
    · left
      have hsome : (s.status x).isSome = true := by
        obtain h | h := h
        · rw [h]
          rfl
        · exact h.1
      obtain ⟨status, hstatus⟩ := Option.isSome_iff_exists.mp hsome
      rw [hstatus]
      rfl
    · refine h.imp_right fun h => ⟨h.1, ?_⟩
      obtain ⟨-, y', hy', hid'⟩ := h
      obtain rfl | hy' := mem_cons.mp hy'
      · exact absurd hid' hid
      · exact ⟨y', hy', hid'⟩

theorem status_of_not_settled (h : ∀ y ∈ ready, y.2.1.id ≠ x.2.id) :
    (ready.foldl State.markReady s).status x = s.status x := by
  induction ready generalizing s with
  | nil => rfl
  | cons y ready ih =>
    obtain ⟨hy, hready⟩ := forall_mem_cons.mp h
    refine (ih hready).trans ?_
    rw [status_markReady, if_neg hy]

theorem prepared_of_settled (hflows : WellFormed flows)
    (hpending : ∀ x ∈ pending, x ∈ allDirections flows ∧ x.1.control ≠ .distributed)
    (hnodup : pending.Nodup) (h : pending.mapM (settled fabric tick round s) = .ok results) :
    Prepared fabric flows s.installed
      (results.reduceOption.map fun x => ⟨fabric.pid x.2.1.node, x.2.2⟩)
      (results.reduceOption.map fun x => (x.2.1.id, some x.2.2)) := by
  refine ⟨?_, ?_, fun a ha hnone => ?_⟩
  · refine forall₂_map_left_iff.mpr (forall₂_map_right_iff.mpr ?_)
    refine forall₂_same.mpr fun y hy => ?_
    obtain ⟨x, hx, hsettled⟩ := (mapM_ok h).1 _ (reduceOption_mem_iff.mp hy)
    obtain ⟨rfl, hinstalls, -⟩ := settled_eq_some hsettled
    obtain ⟨hmem, hsteered⟩ := hpending _ hx
    exact ⟨_, hmem, hsteered, rfl, rfl, .inl ⟨rfl, hinstalls⟩⟩
  · -- the ids of the directions of a sublist of `pending`
    have hsublist := settled_sublist h
    have hids : ((results.reduceOption.map fun x => (x.2.1.id, some x.2.2)).map Prod.fst) =
        (results.reduceOption.map fun y => (y.1, y.2.1)).map fun x => x.2.id := by
      rw [map_map, map_map]
      rfl
    rw [hids]
    refine List.Nodup.map_on (fun x hx y hy hid => ?_) (hnodup.sublist hsublist)
    exact hflows.direction_injective (hpending x (hsublist.subset hx)).1
      (hpending y (hsublist.subset hy)).1 hid
  · obtain ⟨y, -, rfl⟩ := mem_map.mp ha
    cases hnone

theorem closed_of_settled (h : pending.mapM (settled fabric tick round s) = .ok results)
    (hclosed : Closed flows s) (hstates : s'.states = s.states)
    (hinstalled : s'.installed =
      record s.installed (results.reduceOption.map fun x => (x.2.1.id, some x.2.2))) :
    Closed flows (results.reduceOption.foldl State.markReady s') := by
  intro x hx hstatus
  have hsame : s'.status x = s.status x := by
    unfold State.status
    rw [hstates]
  have hothers : ∀ y ∈ results.reduceOption, y.2.1.id ≠ x.2.id := by
    intro y hy hid
    obtain ⟨z, hz, hsettled⟩ := (mapM_ok h).1 _ (reduceOption_mem_iff.mp hy)
    obtain ⟨rfl, -, hsome⟩ := settled_eq_some hsettled
    refine hstatus (status_of_settled (.inr ⟨?_, y, hy, hid⟩))
    rw [hsame]
    unfold State.status
    rw [Option.isSome_map, ← hid]
    exact hsome
  rw [status_of_not_settled hothers, hsame] at hstatus
  rw [(markReady_foldl _ _).1, hinstalled, record, Ledger.write_of_not_mem]
  · exact hclosed x hx hstatus
  · intro v hv
    obtain ⟨y, hy, heq⟩ := mem_map.mp hv
    exact hothers y hy (congrArg Prod.fst heq)

theorem settleRounds_inv (hflows : WellFormed flows) {rounds : List Round} (hs : Inv fabric flows s)
    (hclosed : Closed flows s)
    (hpending : ∀ x ∈ pending, x ∈ allDirections flows ∧ x.1.control ≠ .distributed)
    (hnodup : pending.Nodup) (h : settleRounds fabric tick rounds pending s = (r, s')) :
    Inv fabric flows s' ∧ (r = .ok () → Closed flows s') := by
  induction rounds generalizing s pending with
  | nil =>
    cases h
    exact ⟨hs, fun _ => hclosed⟩
  | cons round rounds ih =>
    unfold settleRounds at h
    split_ifs at h with hempty
    · cases h
      exact ⟨hs, fun _ => hclosed⟩
    · cases hresults : pending.mapM (settled fabric tick round s) with
      | error error =>
        rw [hresults] at h
        cases h
        exact ⟨hs, nofun⟩
      | ok results =>
        rw [hresults] at h
        dsimp only at h
        split_ifs at h with hnone
        · exact ih hs hclosed hpending hnodup h
        · have hprepared := prepared_of_settled hflows hpending hnodup hresults
          generalize happly : applySteering _ _ round.jobs s = result at h
          obtain ⟨r', s₁⟩ := result
          have hs₁ := hs.applySteering hflows hprepared happly
          obtain ⟨-, ⟨rfl, -, hstates, hinstalled, -⟩ | ⟨error, n, rfl, -⟩⟩ :=
            applySteering_cases happly
          · refine ih (hs₁.same (markReady_foldl results.reduceOption s₁))
              (closed_of_settled hresults hclosed hstates hinstalled)
              (fun x hx => hpending x (mem_of_mem_filter hx)) (hnodup.filter _) h
          · cases h
            exact ⟨hs₁, nofun⟩

end Rest

section Updates

variable {fabric : Fabric} {flows : List Flow} {tick : Tick} {s s' : State}

variable {r : Except Error Unit}

theorem conclude_inv (hflows : WellFormed flows) (hs : Inv fabric flows s) {acc : Collector}
    (hacc : Collecting fabric flows s (allDirections flows) acc)
    (h : conclude fabric flows tick acc = (r, s')) :
    Inv fabric flows s' ∧ (r = .ok () → Closed flows s') := by
  unfold conclude at h
  have hacc' : Inv fabric flows acc.state := hs.same ⟨hacc.installed, hacc.kernel, hacc.log⟩
  have hprepared : Prepared fabric flows acc.state.installed acc.operations acc.applied :=
    hacc.installed ▸ hacc.prepared
  generalize happly : applySteering _ _ tick.jobs acc.state = result at h
  obtain ⟨r₁, s₁⟩ := result
  have hs₁ := hacc'.applySteering hflows hprepared happly
  obtain ⟨-, ⟨rfl, -, hstates, hinstalled, -⟩ | ⟨error, n, rfl, -⟩⟩ := applySteering_cases happly
  · -- what is not ready has been withdrawn
    have hclosed₁ : Closed flows s₁ := by
      intro x hx hstatus
      rw [hinstalled, hacc.installed]
      refine hacc.closed x hx fun hready => hstatus ?_
      unfold State.status at hready ⊢
      rw [hstates]
      exact hready
    dsimp only at h
    generalize hn3 : updateN3 fabric tick s₁ = result at h
    obtain ⟨r₂, s₂⟩ := result
    obtain ⟨hinstalled₂, hstates₂, hlog₂, hkernel₂⟩ := updateN3_same hflows hn3
    have hs₂ : Inv fabric flows s₂ := hs₁.congr hinstalled₂ hlog₂ hkernel₂
    have hclosed₂ : Closed flows s₂ := by
      intro x hx hstatus
      rw [hinstalled₂]
      refine hclosed₁ x hx fun hready => hstatus ?_
      unfold State.status at hready ⊢
      rw [hstates₂]
      exact hready
    cases r₂ with
    | error error =>
      cases h
      exact ⟨hs₂, nofun⟩
    | ok _ =>
      refine settleRounds_inv hflows hs₂ hclosed₂ (fun x hx => ?_)
        (hflows.nodup_allDirections.filter _) h
      obtain ⟨hmem, hpcep⟩ := mem_filter.mp hx
      refine ⟨hmem, ?_⟩
      rw [hflows.control x.1 (mem_allDirections.mp hmem).1, (of_decide_eq_true hpcep).1]
      decide
  · cases h
    exact ⟨hs₁, nofun⟩

/-- **What an update comes to**: the contacts cannot be read, or the directions are visited, and an
exception ends that or the rest of the update follows. -/
theorem update_cases (h : update fabric flows s tick = (r, s')) :
    (∃ error, tick.edges = .error error ∧ (r, s') = (.error error, s)) ∨
      ∃ edges bgpError r₁ acc,
        visitAll fabric tick edges bgpError (allDirections flows) ⟨s, [], []⟩ = (r₁, acc) ∧
        (∀ error, r₁ = .error error → (r, s') = (.error error, acc.state)) ∧
        (r₁ = .ok () → conclude fabric flows tick acc = (r, s')) := by
  unfold update at h
  cases hedges : tick.edges with
  | ok edges =>
    rw [hedges] at h
    dsimp only at h
    generalize hall : visitAll fabric tick edges none _ _ = result at h
    obtain ⟨r₁, acc⟩ := result
    refine .inr ⟨edges, none, r₁, acc, hall, fun error he => ?_, fun he => ?_⟩
    · rw [he] at h
      exact h.symm
    · rw [he] at h
      exact h
  | error error =>
    rw [hedges] at h
    dsimp only at h
    by_cases hcaught : error.kind ∈ [Kind.value, Kind.runtime, Kind.os]
    · rw [if_pos hcaught] at h
      generalize hall : visitAll fabric tick _ _ _ _ = result at h
      obtain ⟨r₁, acc⟩ := result
      refine .inr ⟨_, _, r₁, acc, hall, fun error he => ?_, fun he => ?_⟩
      · rw [he] at h
        exact h.symm
      · rw [he] at h
        exact h
    · rw [if_neg hcaught] at h
      exact .inl ⟨error, rfl, h.symm⟩

theorem update_inv (hflows : WellFormed flows) (hs : Inv fabric flows s)
    (h : update fabric flows s tick = (r, s')) :
    Inv fabric flows s' ∧ (r = .ok () → Closed flows s') := by
  obtain ⟨error, -, hr⟩ | ⟨edges, bgpError, r₁, acc, hall, hfailed, hended⟩ := update_cases h
  · cases hr
    exact ⟨hs, nofun⟩
  · have hstart : Collecting fabric flows s [] ⟨s, [], []⟩ :=
      ⟨rfl, rfl, rfl, ⟨List.Forall₂.nil, nodup_nil, nofun⟩, nofun, nofun⟩
    obtain ⟨hcollecting, hsame⟩ := hstart.visitAll hflows hs rfl hall
    cases r₁ with
    | error error =>
      cases hfailed error rfl
      exact ⟨hs.same hsame, nofun⟩
    | ok _ => exact conclude_inv hflows hs (hcollecting rfl) (hended rfl)

theorem run_inv (hflows : WellFormed flows) (fabric : Fabric) (ticks : List Tick) :
    Inv fabric flows (run fabric flows ticks) := by
  induction ticks using reverseRecOn with
  | nil =>
    refine ⟨fun before b after heq => ?_, fun key => rfl, fun x _ _ => ?_, fun key hkey => ?_⟩
    · cases before with
      | nil => cases heq
      | cons _ _ => cases heq
    · refine ⟨nofun, ?_⟩
      rintro ⟨args, heq, -⟩
      cases heq
    · cases hkey
  | append_singleton ticks tick ih =>
    unfold run
    rw [foldl_append]
    exact (update_inv hflows ih rfl).1

/-- **When the steering fails closed.** Whatever the plans, the contacts and the failures were:
after an update that returns, no direction that is not ready has an encapsulating route exactly when
none of them was left behind by a list of commands that stopped. -/
theorem fails_closed_iff {config : Config} {gateways : List Node}
    (hflows : catalog config gateways = .ok flows) (ticks : List Tick)
    (h : update fabric flows (run fabric flows ticks) tick = (.ok (), s)) :
    FailsClosed fabric flows s ↔
      ∀ x ∈ allDirections flows, x.1.control ≠ .distributed → s.status x ≠ some .ready →
        ¬ Ledger.LeftBehind s.log x.2.id := by
  have hwell := catalog_wellFormed hflows
  obtain ⟨hinv, hclosed⟩ := update_inv hwell (run_inv hwell fabric ticks) h
  have hpoint : ∀ x ∈ allDirections flows, x.1.control ≠ .distributed →
      s.status x ≠ some .ready →
      ((s.kernel (slot fabric x) = none ∨ s.kernel (slot fabric x) = some (unreachable x.1 x.2)) ↔
        ¬ Ledger.LeftBehind s.log x.2.id) := by
    intro x hx hsteered hstatus
    have hunrecorded : (Ledger.run s.log).recorded x.2.id = false := by
      rw [hinv.recorded, hclosed rfl x hx hstatus]
      rfl
    rw [← not_encapsulates_iff, ← hinv.actual x hx hsteered,
      (Ledger.actual_iff_leftBehind hinv.proper x.2.id).2 hunrecorded]
  constructor
  · intro hfails x hx hsteered hstatus
    exact (hpoint x hx hsteered hstatus).mp (hfails x hx hsteered hstatus)
  · intro hleft x hx hsteered hstatus
    exact (hpoint x hx hsteered hstatus).mpr (hleft x hx hsteered hstatus)

end Updates

/-! ### A route that is left behind -/

section

def webConfig : Config := ⟨true, 1, .ring, [⟨"web", .srv6, .hybrid⟩]⟩

def webFabric : Fabric where
  pid := fun node => if node = "a" then 101 else 102
  interface := fun _ _ => .ok "sf1"
  hop := fun _ _ => .ok "10.128.0.5"
  loopback := fun _ => .ok "10.255.0.1"
  locator := fun node => .ok (if node = "a" then "fc00:0:1::" else "fc00:0:2::")
  svi := fun _ => .ok "10.232.0.1"
  sid := fun _ => .ok 16001
  n3Evpn := false
  service := []

/-- All contacts are up; the plan and the outcome of the commands are given. -/
def webTick (plan : Option Plan) (jobs : Outcome) : Tick where
  plan := plan
  active := fun _ _ => .ok true
  edges := .ok fun _ _ => true
  recent := fun _ => true
  ribs := fun _ _ => none
  ospf := fun _ _ => .ok fun _ => []
  bindings := fun _ => .ok []
  lfib := fun _ => .ok fun _ => ⟨false, []⟩
  responses := []
  configure := fun _ => .ok ()
  monotonic := fun _ => 0
  jobs := jobs
  n3 := .done
  rounds := []

def webPlan : Plan :=
  ⟨"plan-1", fun intent => if intent = "work-web-01-forward" then some [["a", "sat", "b"]]
    else if intent = "work-web-01-reverse" then some [["b", "sat", "a"]] else none⟩

def stopped : Outcome := .failed 1 ⟨.runtime, "wire operation 1"⟩

def webFlows : List Flow := (catalog webConfig ["a", "b"]).toOption.getD []

theorem catalog_web : catalog webConfig ["a", "b"] = .ok webFlows := rfl

/-- **Directions do not meet.** In the catalogue of every configuration that is accepted, no two
directions have the same id, and the route of a steered one is in a slot of its own, outside the
table of the N3 service. -/
theorem catalog_keeps_apart {config : Config} {gateways : List Node} {flows : List Flow}
    (fabric : Fabric) (hflows : catalog config gateways = .ok flows) {x y : Flow × Direction}
    (hx : x ∈ allDirections flows) (hy : y ∈ allDirections flows) (hne : x ≠ y) :
    x.2.id ≠ y.2.id ∧ (x.1.control ≠ .distributed →
      slot fabric x ≠ slot fabric y ∧ (slot fabric x).2.1 ≠ "300") := by
  have hwell := catalog_wellFormed hflows
  refine ⟨fun hid => hne (hwell.direction_injective hx hy hid), fun hsteered => ?_⟩
  refine ⟨slot_ne hwell hx hy hsteered hne, fun htable => ?_⟩
  exact hwell.table_ne x.1 (mem_allDirections.mp hx).1 (Wire.toString_injective htable)

theorem catalog_keeps_apart_web : ∃ x y, x ∈ allDirections webFlows ∧ y ∈ allDirections webFlows ∧
    x.2.id ≠ y.2.id :=
  have hx := getElem_mem (by decide : 0 < (allDirections webFlows).length)
  have hy := getElem_mem (by decide : 1 < (allDirections webFlows).length)
  ⟨_, _, hx, hy, (catalog_keeps_apart webFabric catalog_web hx hy (by decide)).1⟩

/-- The state after two updates: the list of the first one stops, and there is no plan any more for
the second one. -/
def webUpdate : Except Error Unit × State :=
  update webFabric webFlows (run webFabric webFlows [webTick (some webPlan) stopped])
    (webTick none .done)

theorem webUpdate_returns : webUpdate = (.ok (), webUpdate.2) := by
  have hreturns : webUpdate.1 = .ok () := by decide +kernel
  exact Prod.ext hreturns rfl

theorem fails_closed_iff_web :
    FailsClosed webFabric webFlows webUpdate.2 ↔
      ∀ x ∈ allDirections webFlows, x.1.control ≠ .distributed →
        webUpdate.2.status x ≠ some .ready → ¬ Ledger.LeftBehind webUpdate.2.log x.2.id :=
  fails_closed_iff catalog_web [webTick (some webPlan) stopped] webUpdate_returns

/-- The forward direction is not ready after the second update, and its route is still there. -/
theorem route_left_behind :
    update webFabric webFlows (run webFabric webFlows [webTick (some webPlan) stopped])
        (webTick none .done) = (.ok (), webUpdate.2) ∧
      ¬ FailsClosed webFabric webFlows webUpdate.2 := by
  refine ⟨webUpdate_returns, ?_⟩
  unfold FailsClosed
  decide +kernel

end

end StarFabric.Workloads

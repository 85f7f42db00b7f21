import StarFabric.Model.RouteOrder
import StarFabric.Reconcile.Apply

/-!
# An `Apply` in which the devices do what they are asked

An outside *serves* a plan (`Serves`) when the plan stays valid, the state file can be written, and
all devices do what they are asked to, apart from some that are down. If these have no routes in the
plan, every stage succeeds up to the verdict of the data-plane verifier (`ends_apply`).
-/

namespace StarFabric

namespace Adapter.Ledger

open Go

def prepare (l : Ledger) (plan : RoutePlan) : Ledger :=
  if plan.id = l.appliedPlanID ∨ (l.prepared plan.id).isSome then l else l.stage plan

def commit (l : Ledger) (planID : String) : Ledger :=
  if planID = l.appliedPlanID then l
  else match l.prepared planID with
    | none => l
    | some tx => l.install planID tx

def settle (l : Ledger) (plan : RoutePlan) : Ledger := (l.prepare plan).commit plan.id

def Committable (l : Ledger) (planID : String) : Prop :=
  planID = l.appliedPlanID ∨ (l.prepared planID).isSome

theorem prepared_stage (l : Ledger) (plan : RoutePlan) :
    (l.stage plan).prepared plan.id = some ⟨plan, l.routes, l.appliedPlanID⟩ :=
  Function.update_self plan.id _ l.prepared

theorem committable_prepare (l : Ledger) (plan : RoutePlan) :
    (l.prepare plan).Committable plan.id := by
  unfold prepare
  split_ifs with h
  · exact h
  · refine .inr ?_
    rw [prepared_stage]
    rfl

variable {l : Ledger} {planID : String}

theorem appliedPlanID_commit (h : l.Committable planID) :
    (l.commit planID).appliedPlanID = planID := by
  unfold commit
  split_ifs with happlied
  · exact happlied.symm
  · obtain ⟨tx, htx⟩ := Option.isSome_iff_exists.mp (h.resolve_left happlied)
    rw [htx]
    rfl

theorem committable_commit (h : l.Committable planID) : (l.commit planID).Committable planID :=
  .inl (appliedPlanID_commit h).symm

theorem commit_commit (h : l.Committable planID) :
    (l.commit planID).commit planID = l.commit planID :=
  if_pos (appliedPlanID_commit h).symm

variable {plan : RoutePlan}

theorem settle_of_applied (h : plan.id = l.appliedPlanID) : l.settle plan = l := by
  unfold settle prepare
  rw [if_pos (.inl h)]
  exact if_pos h

theorem settle_of_ne (h : plan.id ≠ l.appliedPlanID) (hnone : l.prepared plan.id = none) :
    l.settle plan = (l.stage plan).install plan.id ⟨plan, l.routes, l.appliedPlanID⟩ := by
  unfold settle prepare
  rw [if_neg (by simp [h, hnone])]
  have happlied : ¬ plan.id = (l.stage plan).appliedPlanID := h
  unfold commit
  rw [if_neg happlied, prepared_stage]

end Adapter.Ledger

theorem sortRoutes_sortRoutes (routes : List RouteOperation) :
    sortRoutes (sortRoutes routes) = sortRoutes routes :=
  List.Pairwise.insertionSort_eq ((routeLess_by.rearranged id List.Perm.refl).sorted routes)

namespace Reconcile

open Go EffectProgram Adapter List

/-- A device on which the plan can be put: nothing is prepared on it, and if it runs the plan
already then it has its routes. -/
structure Ready (plan : RoutePlan) (name : String) (l : Ledger) : Prop where
  idle : Idle l
  routes : l.appliedPlanID = plan.id → sortRoutes l.routes = sortRoutes (plan.share name)

theorem Ready.settle {plan : RoutePlan} {name : String} {l : Ledger} (h : Ready plan name l) :
    (l.settle (plan.forDevice name)).appliedPlanID = plan.id ∧
      sortRoutes (l.settle (plan.forDevice name)).routes = sortRoutes (plan.share name) := by
  refine ⟨Ledger.appliedPlanID_commit (l.committable_prepare _), ?_⟩
  by_cases happlied : (plan.forDevice name).id = l.appliedPlanID
  · rw [Ledger.settle_of_applied happlied]
    exact h.routes happlied.symm
  · rw [Ledger.settle_of_ne happlied (congrFun h.idle _)]
    exact sortRoutes_sortRoutes _

/-! ### Changing some of the ledgers -/

def applyOn (names : List String) (f : String → Ledger → Ledger) (L : Ledgers) : Ledgers :=
  fun n => if n ∈ names then (L n).map (f n) else L n

section ApplyOn

variable {names : List String} {f g : String → Ledger → Ledger} {L : Ledgers} {n : String}

theorem applyOn_of_mem (h : n ∈ names) : applyOn names f L n = (L n).map (f n) := if_pos h

theorem applyOn_of_not_mem (h : n ∉ names) : applyOn names f L n = L n := if_neg h

@[simp] theorem applyOn_nil : applyOn [] f L = L := by
  funext n
  exact applyOn_of_not_mem not_mem_nil

theorem applyOn_congr {names' : List String} (h : ∀ n, n ∈ names ↔ n ∈ names') :
    applyOn names f L = applyOn names' f L := by
  funext n
  unfold applyOn
  rw [if_congr (h n) rfl rfl]

theorem update_applyOn {l : Ledger} (h : L n = some l) :
    Function.update (applyOn names f L) n (some (f n l)) = applyOn (names ++ [n]) f L := by
  funext m
  by_cases hm : m = n
  · subst hm
    rw [Function.update_self, applyOn_of_mem (mem_append_right _ (mem_singleton_self _)), h]
    rfl
  · rw [Function.update_of_ne hm]
    unfold applyOn
    simp [hm]

theorem applyOn_applyOn :
    applyOn names g (applyOn names f L) = applyOn names (fun n l => g n (f n l)) L := by
  funext n
  by_cases hn : n ∈ names
  · rw [applyOn_of_mem hn, applyOn_of_mem hn, applyOn_of_mem hn, Option.map_map]
    rfl
  · rw [applyOn_of_not_mem hn, applyOn_of_not_mem hn, applyOn_of_not_mem hn]

end ApplyOn

/-! ### Calls that succeed -/

/-- The outside serves the plan, apart from the devices that are down. -/
structure Serves (h : Handler iface World) (plan : RoutePlan) (down : String → Bool) : Prop where
  valid : ∀ w w', Validation.plan plan (h .topology w).1 (h .now w').1 = .ok ()
  health : ∀ {n w l}, down n = false → World.ledger w n = some l → (h (.health n) w).1 = .ok ()
  ill : ∀ {n w}, down n = true → ∃ e, (h (.health n) w).1 = .error e
  state : ∀ {n w l}, down n = false → World.ledger w n = some l →
    ∃ s, (h (.state n) w).1 = .ok s ∧ s.healthy = true
  prepare : ∀ {n w l}, down n = false → World.ledger w n = some l →
    (h (.prepare n (plan.forDevice n)) w).1 = .ok () ∧
      (h (.prepare n (plan.forDevice n)) w).2.ledger =
        Function.update w.ledger n (some (l.prepare (plan.forDevice n)))
  commit : ∀ {n w l}, down n = false → World.ledger w n = some l → l.Committable plan.id →
    (h (.commit n plan.id) w).1 = .ok () ∧
      (h (.commit n plan.id) w).2.ledger = Function.update w.ledger n (some (l.commit plan.id))
  write : ∀ state w, (h (.write state) w).1 = .ok ()

def Checked (down : String → Bool) (n : String) (r : Except String Unit) : Prop :=
  (down n = false → r = .ok ()) ∧ (down n = true → ∃ e, r = .error e)

section Calls

variable {cfg : Config} {h : Handler iface World} {P : Ledgers → Prop} {plan : RoutePlan}
  {down : String → Bool} {L : Ledgers}

abbrev Ends {α : Type} (h : Handler iface World) (P : Ledgers → Prop) (prog : Prog iface α)
    (Q : α → Ledgers → Prop) : Prop :=
  HTriple h (fun _ => True) P prog Q

variable {α : Type} {Q : α → Ledgers → Prop}

theorem ends_pure {a : α} (hQ : ∀ L, P L → Q a L) : Ends h P (pure a) Q :=
  Prog.Triple.pure (fun _ _ => trivial) fun _ hw => hQ _ hw

theorem ends_call {c : Call} {Q : c.Answer → Ledgers → Prop}
    (hcall : ∀ w : World, P w.ledger → Q (h c w).1 (h c w).2.ledger) :
    Ends h P (Prog.ask (I := iface) c) Q :=
  triple_call (fun _ _ => trivial) (fun _ _ _ => trivial) hcall

variable {operation : Prog iface (Except String α)}

theorem ends_invoke_ok (hop : Ends h P operation fun r L => ∃ a, r = .ok a ∧ Q a L) :
    Ends h P (invoke cfg operation) fun r L => ∃ a, r = .ok a ∧ Q a L := by
  unfold invoke
  cases cfg.retryCount with
  | zero => exact hop
  | succ retries =>
    refine hop.bind fun r w hw => ?_
    obtain ⟨a, rfl, hQ⟩ := hw
    exact Prog.meets_pure trivial ⟨a, rfl, hQ⟩

variable [Truthful h]

theorem ends_invoke_error (hop : Ends h P operation fun r L => (∃ e, r = .error e) ∧ P L) :
    Ends h P (invoke cfg operation) fun r L => (∃ e, r = .error e) ∧ P L := by
  unfold invoke
  induction cfg.retryCount with
  | zero => exact hop
  | succ retries ih =>
    refine hop.bind fun r w hw => ?_
    obtain ⟨⟨e, rfl⟩, hP⟩ := hw
    refine ((triple_done fun _ _ => trivial) w hP).bind fun ended w' _ hP' => ?_
    cases ended with
    | some e => exact Prog.meets_pure trivial ⟨⟨e, rfl⟩, hP'⟩
    | none => exact ih w' hP'

variable {n : String}

theorem ends_readDevice {read : String → Prog iface (Except String Unit)}
    {Q : Except String Unit → Ledgers → Prop} (hthere : ∀ L, P L → (L n).isSome)
    (hread : Ends h P (read n) Q) :
    Ends h P (readDevice read n) fun r L => r.1 = n ∧ Q r.2 L := by
  refine (triple_get fun _ _ => trivial).bind fun registered w hw => ?_
  obtain ⟨hP, hregistered⟩ := hw
  rw [hthere _ hP] at hregistered
  rw [if_pos hregistered]
  refine (hread w hP).bind fun r w' _ hQ => ?_
  exact Prog.meets_pure trivial ⟨rfl, hQ⟩

variable (hserves : Serves h plan down)
include hserves

theorem ends_revalidate : Ends h (· = L) (revalidate plan) fun r L' => r = .ok () ∧ L' = L := by
  intro w hw
  refine ⟨trivial, trivial, trivial, hserves.valid _ _, ?_⟩
  show (h .now (h .topology w).2).2.ledger = L
  rw [Truthful.quiet (c := .now) trivial, Truthful.quiet (c := .topology) trivial]
  exact hw

theorem ends_persist {r : Reconciler} :
    Ends h (· = L) (persist cfg r) fun result L' => result = .ok () ∧ L' = L := by
  unfold persist
  split_ifs
  · exact ends_pure fun L' hL => ⟨rfl, hL⟩
  · refine ends_call (c := .write _) fun w hw => ?_
    exact ⟨hserves.write _ _, (Truthful.quiet (c := .write _) trivial).trans hw⟩

variable {l : Ledger}

theorem ends_precheckDevice (hl : L n = some l) : Ends h (· = L) (precheckDevice cfg n) fun r L' =>
      L' = L ∧ Checked down n r := by
  unfold Checked
  cases hdown : down n with
  | true =>
    have hhealth : Ends h (· = L) (invoke cfg (Ask.health n)) fun r L' =>
        (∃ e, r = .error e) ∧ L' = L :=
      ends_invoke_error (ends_call (c := .health n) fun w hw => ⟨hserves.ill hdown,
        (Truthful.quiet (c := .health n) trivial).trans hw⟩)
    refine hhealth.bind fun r w hw => ?_
    obtain ⟨⟨e, rfl⟩, hL⟩ := hw
    exact Prog.meets_pure trivial ⟨hL, nofun, fun _ => ⟨e, rfl⟩⟩
  | false =>
    have hhealth : Ends h (· = L) (invoke cfg (Ask.health n)) fun r L' =>
        ∃ a, r = .ok a ∧ L' = L :=
      ends_invoke_ok (ends_call (c := .health n) fun w hw => ⟨(), hserves.health hdown (hw ▸ hl),
          (Truthful.quiet (c := .health n) trivial).trans hw⟩)
    have hstate : Ends h (· = L) (invoke cfg (Ask.state n)) fun r L' =>
        ∃ s, r = .ok s ∧ s.healthy = true ∧ L' = L :=
      ends_invoke_ok (ends_call (c := .state n) fun w hw => by
          obtain ⟨s, hs, hhealthy⟩ := hserves.state hdown (hw ▸ hl)
          exact ⟨s, hs, hhealthy, (Truthful.quiet (c := .state n) trivial).trans hw⟩)
    refine hhealth.bind fun r w hw => ?_
    obtain ⟨-, rfl, hL⟩ := hw
    refine (hstate w hL).bind fun r w' _ hw' => ?_
    obtain ⟨s, rfl, hhealthy, hL'⟩ := hw'
    dsimp only
    rw [if_neg (by rw [hhealthy]; exact Bool.noConfusion)]
    exact Prog.meets_pure trivial ⟨hL', fun _ => rfl, nofun⟩

theorem ends_verifyDevice {plans : Map RoutePlan}
    (hdown : down n = false) (hl : L n = some l) (happlied : l.appliedPlanID = plan.id)
    (hroutes : sortRoutes l.routes = sortRoutes (planOf plans n).routes) :
    Ends h (· = L) (verifyDevice cfg plan.id plans n) fun r L' => L' = L ∧ r = .ok () := by
  have hstate : Ends h (· = L) (invoke cfg (Ask.state n)) fun r L' =>
      ∃ s, r = .ok s ∧ (s.healthy = true ∧ s.appliedPlanID = l.appliedPlanID ∧
        s.routes = l.routes) ∧ L' = L :=
    ends_invoke_ok (ends_call (c := .state n) fun w hw => by
        obtain ⟨s, hs, hhealthy⟩ := hserves.state hdown (hw ▸ hl)
        obtain ⟨l', hl', hplan, hshown⟩ := Truthful.state hs
        rw [hw, hl] at hl'
        obtain rfl := Option.some.inj hl'
        exact ⟨s, hs, ⟨hhealthy, hplan, hshown⟩, (Truthful.quiet (c := .state n) trivial).trans hw⟩)
  refine hstate.bind fun r w hw => ?_
  obtain ⟨s, rfl, ⟨hhealthy, hplan, hshown⟩, hL⟩ := hw
  dsimp only
  rw [if_neg (by simp [hhealthy, hplan, happlied]), if_neg (by rw [hshown, hroutes]; simp)]
  exact Prog.meets_pure trivial ⟨hL, rfl⟩

end Calls

/-! ### Stages that succeed -/

section

variable {cfg : Config} {h : Handler iface World} {plan : RoutePlan} {plans : Map RoutePlan}
  {down : String → Bool} {names : List String} {L : Ledgers}

abbrev preparedOn (plan : RoutePlan) (names : List String) (L : Ledgers) : Ledgers :=
  applyOn names (fun n l => l.prepare (plan.forDevice n)) L

/-- What the prepare loop makes of `s` when it goes through some names. -/
structure Looped (plan : RoutePlan) (down : String → Bool) (L : Ledgers) (s : Staged)
    (names : List String) (s' : Staged) (L' : Ledgers) : Prop where
  prepared : s'.prepared = s.prepared ++ names.filter (!down ·)
  active : s'.activeNames = s'.prepared
  deferred : s'.deferred = s.deferred ++ names.filter down
  ledger : L' = preparedOn plan s'.prepared L

section

variable {s s' : Staged} {n : String} {L' : Ledgers} {status : ReconcileStatus}

theorem Looped.defer (hdown : down n = true)
    (hloop : Looped plan down L { s with deferred := s.deferred ++ [n], status := status } names
      s' L') : Looped plan down L s (n :: names) s' L' := by
  refine ⟨?_, hloop.active, ?_, hloop.ledger⟩
  · rw [hloop.prepared, filter_cons_of_neg (by simp [hdown])]
  · rw [hloop.deferred, filter_cons_of_pos hdown, append_assoc]
    rfl

theorem Looped.prepare (hup : down n = false) (hloop : Looped plan down L { s with
      prepared := s.prepared ++ [n], activeNames := s.activeNames ++ [n], status := status } names
      s' L') : Looped plan down L s (n :: names) s' L' := by
  refine ⟨?_, hloop.active, ?_, hloop.ledger⟩
  · rw [hloop.prepared, filter_cons_of_pos (by simp [hup]), append_assoc]
    rfl
  · rw [hloop.deferred, filter_cons_of_neg (by simp [hup])]

end

structure Loaded (plan : RoutePlan) (plans : Map RoutePlan) (down : String → Bool) (L : Ledgers)
    (n : String) : Prop where
  up : down n = false
  ledger : ∃ l, L n = some l ∧ l.Committable plan.id ∧
    sortRoutes (l.commit plan.id).routes = sortRoutes (planOf plans n).routes

abbrev committedOn (plan : RoutePlan) (names : List String) (L : Ledgers) : Ledgers :=
  applyOn names (fun _ l => l.commit plan.id) L

variable {rs : List (Except String Unit)}

theorem firstError_eq_ok (h : List.Forall₂ (fun _ r => r = .ok ()) names rs) :
    firstError rs = .ok () := by
  induction h with
  | nil => rfl
  | cons hr _ ih =>
    rw [hr]
    exact ih

theorem commitResults_eq_nil {batch : List String}
    (h : List.Forall₂ (fun _ r => r = .ok ()) batch rs) (status : ReconcileStatus) :
    (commitResults status (batch.zip rs)).2 = [] := by
  induction h generalizing status with
  | nil => rfl
  | cons hr _ ih =>
    rw [hr]
    exact ih _

variable {n : String} {done : List String} (hserves : Serves h plan down)
include hserves

theorem ends_prepare (hdown : down n = false) (hthere : (L n).isSome)
    (hnew : n ∉ done) :
    Ends h (· = preparedOn plan done L) (invoke cfg (Ask.prepare n (plan.forDevice n)))
      fun r L' => ∃ a, r = .ok a ∧ L' = preparedOn plan (done ++ [n]) L := by
  obtain ⟨l, hl⟩ := Option.isSome_iff_exists.mp hthere
  refine ends_invoke_ok (ends_call (c := .prepare n (plan.forDevice n)) fun w hw => ?_)
  have hn : w.ledger n = some l := by
    rw [hw]
    exact (applyOn_of_not_mem hnew).trans hl
  obtain ⟨hok, hledger⟩ := hserves.prepare hdown hn
  refine ⟨(), hok, hledger.trans ?_⟩
  rw [hw]
  exact update_applyOn hl

variable [Truthful h]

theorem ends_precheck (hthere : ∀ n ∈ names, (L n).isSome) :
    Ends h (· = L) (readDevices cfg names (precheckDevice cfg)) fun rs L' =>
      L' = L ∧ List.Forall₂ (Checked down) names rs := by
  refine triple_readDevices_each (A := fun _ L' => L' = L) (fun _ _ _ => trivial)
    (fun _ _ _ _ hL => hL) fun _ n hn => ?_
  obtain ⟨l, hl⟩ := Option.isSome_iff_exists.mp (hthere n hn)
  refine (ends_readDevice (fun L' hL => hL ▸ hthere n hn)
    (ends_precheckDevice hserves hl)).conseq (fun _ hw => hw) fun r w hw => ?_
  exact ⟨hw.2.1, hw.1, hw.2.2⟩

variable {s : Staged}

theorem ends_prepareLoop
    (hplans : ∀ n ∈ names, planOf plans n = plan.forDevice n) (hthere : ∀ n ∈ names, (L n).isSome)
    (hunused : ∀ n ∈ names, down n = true → plan.share n = [])
    {todo : List (String × Except String Unit)} (hsub : ∀ n ∈ todo.map Prod.fst, n ∈ names)
    (hchecked : ∀ entry ∈ todo, Checked down entry.1 entry.2)
    (hnodup : (s.prepared ++ todo.map Prod.fst).Nodup) (hactive : s.activeNames = s.prepared) :
    Ends h (· = preparedOn plan s.prepared L) (prepareLoop cfg plans todo s) fun r L' =>
      ∃ s', r = .ok s' ∧ Looped plan down L s (todo.map Prod.fst) s' L' := by
  induction todo generalizing s with
  | nil =>
    refine ends_pure fun L' hL => ⟨s, rfl, ?_, hactive, ?_, hL⟩
    · exact (append_nil _).symm
    · exact (append_nil _).symm
  | cons entry rest ih =>
    obtain ⟨n, health⟩ := entry
    have hn : n ∈ names := hsub n mem_cons_self
    obtain ⟨hhealth, hrest⟩ := forall_mem_cons.mp hchecked
    have hnew : n ∉ s.prepared := fun hmem =>
      (nodup_append.mp hnodup).2.2 n hmem n mem_cons_self rfl
    have hkept : preparedOn plan s.prepared L n = L n := applyOn_of_not_mem hnew
    have hsub' : ∀ m ∈ rest.map Prod.fst, m ∈ names :=
      fun m hm => hsub m (mem_cons_of_mem _ hm)
    have hget : Ends h (· = preparedOn plan s.prepared L) (Ask.get n) fun registered L' =>
        L' = preparedOn plan s.prepared L ∧ registered = (L' n).isSome :=
      triple_get fun _ _ => trivial
    refine hget.bind fun registered w hw => ?_
    obtain ⟨hL, hregistered⟩ := hw
    rw [hL, hkept, hthere n hn] at hregistered
    rw [if_pos hregistered]
    cases hdown : down n with
    | true =>
      -- the device has no routes in the plan, so that its error does not end the loop
      obtain ⟨e, rfl⟩ := hhealth.2 hdown
      have hroutes : (planOf plans n).routes = [] := by
        rw [hplans n hn]
        exact hunused n hn hdown
      rw [hroutes]
      have hnodup' : (s.prepared ++ rest.map Prod.fst).Nodup :=
        hnodup.sublist (List.Sublist.append_left (sublist_cons_self _ _) _)
      have hnext := fun status => ih (s := { s with
        deferred := s.deferred ++ [n], status := status }) hsub' hrest hnodup' hactive w hL
      refine (hnext _).mono fun r w' _ hr => ?_
      obtain ⟨s', rfl, hloop⟩ := hr
      exact ⟨s', rfl, hloop.defer hdown⟩
    | false =>
      obtain rfl := hhealth.1 hdown
      rw [hplans n hn]
      refine (ends_prepare hserves hdown (hthere n hn) hnew w hL).bind fun r w' _ hw' => ?_
      obtain ⟨a, rfl, hL'⟩ := hw'
      have hnodup' : ((s.prepared ++ [n]) ++ rest.map Prod.fst).Nodup := by
        rw [append_assoc]
        exact hnodup
      have hnext := fun status => ih (s := { s with
        prepared := s.prepared ++ [n], activeNames := s.activeNames ++ [n], status := status })
        hsub' hrest hnodup' (congrArg (· ++ [n]) hactive) w' hL'
      refine (hnext _).mono fun r w'' _ hr => ?_
      obtain ⟨s', rfl, hloop⟩ := hr
      exact ⟨s', rfl, hloop.prepare hdown⟩

theorem ends_commit (hn : Loaded plan plans down L n) :
    Ends h (· = committedOn plan done L)
      (readDevice (fun name => invoke cfg (Ask.commit name plan.id)) n)
      fun r L' => L' = committedOn plan (done ++ [n]) L ∧ r.1 = n ∧ r.2 = .ok () := by
  obtain ⟨hup, l, hl, hcommittable, -⟩ := hn
  have hledger : ∃ m, committedOn plan done L n = some m ∧ m.Committable plan.id ∧
      m.commit plan.id = l.commit plan.id := by
    by_cases hdone : n ∈ done
    · refine ⟨l.commit plan.id, ?_, Ledger.committable_commit hcommittable,
        Ledger.commit_commit hcommittable⟩
      exact (applyOn_of_mem hdone).trans (by rw [hl]; rfl)
    · exact ⟨l, (applyOn_of_not_mem hdone).trans hl, hcommittable, rfl⟩
  obtain ⟨m, hm, hm', hcommit⟩ := hledger
  have hcall : Ends h (· = committedOn plan done L) (invoke cfg (Ask.commit n plan.id))
      fun r L' => ∃ a, r = .ok a ∧ L' = committedOn plan (done ++ [n]) L := by
    refine ends_invoke_ok (ends_call (c := .commit n plan.id) fun w hw => ?_)
    obtain ⟨hok, hledger⟩ := hserves.commit hup (hw ▸ hm) hm'
    refine ⟨(), hok, hledger.trans ?_⟩
    rw [hw, hcommit]
    exact update_applyOn hl
  have hthere : ∀ L', L' = committedOn plan done L → (L' n).isSome := by
    rintro L' rfl
    rw [hm]
    rfl
  refine (ends_readDevice hthere hcall).conseq (fun _ hw => hw) fun r w hw => ?_
  obtain ⟨hname, a, hok, hL⟩ := hw
  exact ⟨hL, hname, hok⟩

theorem ends_verify (hnames : ∀ n ∈ names, n ∈ done)
    (hloaded : ∀ n ∈ names, Loaded plan plans down L n) :
    Ends h (· = committedOn plan done L) (verify cfg plan.id names plans) fun r L' =>
      r = .ok () ∧ L' = committedOn plan done L := by
  have hread : Ends h (· = committedOn plan done L)
      (readDevices cfg names (verifyDevice cfg plan.id plans)) fun rs L' =>
      L' = committedOn plan done L ∧ List.Forall₂ (fun _ r => r = .ok ()) names rs := by
    refine triple_readDevices_each (A := fun _ L' => L' = committedOn plan done L)
      (fun _ _ _ => trivial) (fun _ _ _ _ hL => hL) fun _ n hn => ?_
    obtain ⟨hup, l, hl, hcommittable, hroutes⟩ := hloaded n hn
    have hledger : committedOn plan done L n = some (l.commit plan.id) :=
      (applyOn_of_mem (hnames n hn)).trans (by rw [hl]; rfl)
    have hthere : ∀ L', L' = committedOn plan done L → (L' n).isSome := by
      rintro L' rfl
      rw [hledger]
      rfl
    refine (ends_readDevice hthere (ends_verifyDevice hserves hup hledger
      (Ledger.appliedPlanID_commit hcommittable) hroutes)).conseq (fun _ hw => hw) fun r w hw => ?_
    exact ⟨hw.2.1, hw.1, hw.2.2⟩
  refine hread.bind fun rs w hw => ?_
  exact Prog.meets_pure trivial ⟨firstError_eq_ok hw.2, hw.1⟩

theorem ends_commitLoop {prepared : List String}
    {batches : List (List String)} {status : ReconcileStatus}
    (hloaded : ∀ n ∈ batches.flatten, Loaded plan plans down L n) :
    Ends h (· = committedOn plan done L) (commitLoop cfg plan plans prepared batches status)
      fun r L' => (∃ status', r = .ok status') ∧
        L' = committedOn plan (done ++ batches.flatten) L := by
  induction batches generalizing done status with
  | nil =>
    refine ends_pure fun L' hL => ⟨⟨status, rfl⟩, ?_⟩
    rw [flatten_nil, append_nil]
    exact hL
  | cons batch rest ih =>
    have hbatch : ∀ n ∈ batch, Loaded plan plans down L n :=
      fun n hn => hloaded n (mem_append_left _ hn)
    have hcommits : Ends h (· = committedOn plan (done ++ []) L)
        (readDevices cfg batch fun name => invoke cfg (Ask.commit name plan.id)) fun rs L' =>
        L' = committedOn plan (done ++ batch) L ∧
          List.Forall₂ (fun _ r => r = .ok ()) batch rs := by
      refine triple_readDevices_each (A := fun more L' => L' = committedOn plan (done ++ more) L)
        (fun _ _ _ => trivial) (fun more more' L' hmem hL => hL.trans ?_) fun more n hn => ?_
      · refine applyOn_congr fun n => ?_
        rw [mem_append, mem_append, hmem]
      · rw [← append_assoc]
        exact ends_commit hserves (hbatch n hn)
    rw [append_nil] at hcommits
    refine (ends_revalidate hserves).bind fun r w hw => ?_
    obtain ⟨rfl, hL⟩ := hw
    refine (hcommits w hL).bind fun results w' _ hw' => ?_
    have hnil := commitResults_eq_nil hw'.2 status
    cases hresults : commitResults status (batch.zip results) with
    | mk status' errs =>
      rw [hresults] at hnil
      obtain rfl : errs = [] := hnil
      refine (ends_verify hserves (fun n hn => mem_append_right _ hn) hbatch w' hw'.1).bind
        fun r w'' _ hw'' => ?_
      obtain ⟨rfl, hL''⟩ := hw''
      refine (ih (fun n hn => hloaded n (mem_append_right _ hn)) w'' hL'').mono fun r w₃ _ hr => ?_
      rw [flatten_cons, ← append_assoc]
      exact hr

theorem ends_finalChecks (hnames : ∀ n ∈ s.activeNames, n ∈ done)
    (hloaded : ∀ n ∈ s.activeNames, Loaded plan plans down L n)
    (hverify : ∀ w : World, w.ledger = committedOn plan done L → (h (.verify plan) w).1 = .ok ()) :
    Ends h (· = committedOn plan done L) (finalChecks cfg plan plans s) fun r L' =>
      (∃ status, r = .ok status) ∧ L' = committedOn plan done L := by
  refine (ends_revalidate hserves).bind fun r w hw => ?_
  obtain ⟨rfl, hL⟩ := hw
  refine (ends_verify hserves hnames hloaded w hL).bind fun r w' _ hw' => ?_
  obtain ⟨rfl, hL'⟩ := hw'
  split_ifs
  · have hverifier : Ends h (· = committedOn plan done L) (invoke cfg (Ask.verify plan))
        fun r L' => ∃ a, r = .ok a ∧ L' = committedOn plan done L :=
      ends_invoke_ok (ends_call (c := .verify plan) fun w hw => ⟨(), hverify w hw,
        (Truthful.quiet (c := .verify plan) trivial).trans hw⟩)
    refine (hverifier w' hL').bind fun r w'' _ hw'' => ?_
    obtain ⟨a, rfl, hL''⟩ := hw''
    exact Prog.meets_pure trivial ⟨⟨_, rfl⟩, hL''⟩
  · exact Prog.meets_pure trivial ⟨⟨_, rfl⟩, hL'⟩

end

section Transaction

variable {cfg : Config} {h : Handler iface World} [Truthful h] {plan : RoutePlan}
  {plans : Map RoutePlan} {down : String → Bool} {names : List String} {L : Ledgers}

def settledOn (plan : RoutePlan) (names : List String) (L : Ledgers) : Ledgers :=
  applyOn names (fun n l => l.settle (plan.forDevice n)) L

/-- What is asked of the devices that a plan visits. -/
structure Prepared (plan : RoutePlan) (down : String → Bool) (L : Ledgers) (names : List String) :
    Prop where
  there : ∀ n ∈ names, ∃ l, L n = some l ∧ Ready plan n l
  unused : ∀ n ∈ names, down n = true → plan.share n = []

variable {n : String}

theorem Prepared.isSome (hnames : Prepared plan down L names) (hn : n ∈ names) : (L n).isSome := by
  obtain ⟨l, hl, -⟩ := hnames.there n hn
  rw [hl]
  rfl

theorem Prepared.loaded (hnames : Prepared plan down L names)
    (hplans : ∀ n ∈ names, planOf plans n = plan.forDevice n) {active : List String}
    (hn : n ∈ names) (hactive : n ∈ active) (hup : down n = false) :
    Loaded plan plans down (preparedOn plan active L) n := by
  obtain ⟨l, hl, hready⟩ := hnames.there n hn
  have hledger : preparedOn plan active L n = some (l.prepare (plan.forDevice n)) :=
    (applyOn_of_mem hactive).trans (by rw [hl]; rfl)
  refine ⟨hup, _, hledger, l.committable_prepare (plan.forDevice n), ?_⟩
  rw [hplans n hn]
  exact hready.settle.2

theorem ends_transact (hserves : Serves h plan down) (hnames : Prepared plan down L names)
    (hnodup : names.Nodup) (hplans : ∀ n ∈ names, planOf plans n = plan.forDevice n)
    (hverify : ∀ w : World, w.ledger = settledOn plan (names.filter (!down ·)) L →
      (h (.verify plan) w).1 = .ok ()) {status : ReconcileStatus} :
    Ends h (· = L) (transact cfg plan plans names status) fun r L' =>
      (∃ s, r = .ok s ∧ s.deferred = names.filter down) ∧
        L' = settledOn plan (names.filter (!down ·)) L := by
  refine (ends_precheck hserves fun n hn => hnames.isSome hn).bind fun health w hw => ?_
  obtain ⟨hL, hhealth⟩ := hw
  have hzip : (names.zip health).map Prod.fst = names := map_fst_zip (le_of_eq hhealth.length_eq)
  have hchecked : ∀ entry ∈ names.zip health, Checked down entry.1 entry.2 :=
    fun entry hentry => forall₂_zip hhealth hentry
  refine ((ends_prepareLoop (s := { status := { status with phase := .preparing } }) hserves hplans
    (fun n hn => hnames.isSome hn) hnames.unused (by rw [hzip]; exact fun _ hn => hn) hchecked
    (by rw [hzip]; exact hnodup) rfl) w (hL.trans applyOn_nil.symm)).bind fun r w' _ hw' => ?_
  obtain ⟨s, rfl, hprepared, hactive, hdeferred, hL'⟩ := hw'
  rw [hzip, nil_append] at hprepared hdeferred
  -- the devices that are prepared are those that are up
  have hloaded : ∀ n ∈ s.activeNames,
      Loaded plan plans down (preparedOn plan (names.filter (!down ·)) L) n := by
    intro n hn
    rw [hactive, hprepared] at hn
    obtain ⟨hmem, hup⟩ := mem_filter.mp hn
    exact hnames.loaded hplans hmem hn (by simpa using hup)
  have hchunks : (chunks cfg.batchSize s.activeNames).flatten = names.filter (!down ·) := by
    rw [flatten_chunks cfg.batchSize_pos, hactive, hprepared]
  have hsettled : committedOn plan (names.filter (!down ·))
      (preparedOn plan (names.filter (!down ·)) L) = settledOn plan (names.filter (!down ·)) L :=
    applyOn_applyOn
  have hstart : w'.ledger = committedOn plan [] (preparedOn plan (names.filter (!down ·)) L) := by
    rw [hL', hprepared]
    exact applyOn_nil.symm
  have hbatches : ∀ n ∈ (chunks cfg.batchSize s.activeNames).flatten,
      Loaded plan plans down (preparedOn plan (names.filter (!down ·)) L) n := by
    rw [flatten_chunks cfg.batchSize_pos]
    exact hloaded
  refine ((ends_commitLoop hserves hbatches) w' hstart).bind fun r w'' _ hw'' => ?_
  obtain ⟨⟨status', rfl⟩, hL''⟩ := hw''
  rw [nil_append, hchunks] at hL''
  refine ((ends_finalChecks (s := { s with status := { status' with phase := .verifying } }) hserves
    (fun n hn => hprepared ▸ hactive ▸ hn) hloaded (by rw [hsettled]; exact hverify)) w'' hL'').bind
    fun r w₃ _ hw₃ => ?_
  obtain ⟨⟨status'', rfl⟩, hL₃⟩ := hw₃
  exact Prog.meets_pure trivial ⟨⟨_, rfl, hdeferred⟩, hL₃.trans hsettled⟩

structure Committed (plan : RoutePlan) (down : String → Bool) (L : Ledgers) (names : List String)
    (o : Outcome) (L' : Ledgers) : Prop where
  err : o.err = none
  committedPlan : o.reconciler.committedPlan = some plan
  pendingDevices : o.reconciler.pendingDevices = names.filter down
  ledger : L' = settledOn plan (names.filter (!down ·)) L

variable {r : Reconciler}

theorem ends_record (hserves : Serves h plan down) {s : Staged}
    (hdeferred : s.deferred = names.filter down) :
    Ends h (· = settledOn plan (names.filter (!down ·)) L) (record cfg r plan s)
      (Committed plan down L names) := by
  have hnow : Ends h (· = settledOn plan (names.filter (!down ·)) L) Ask.now fun _ L' =>
      L' = settledOn plan (names.filter (!down ·)) L := triple_now fun _ _ => trivial
  refine hnow.bind fun finishedAt => ?_
  refine (ends_persist hserves).bind fun result w hw => ?_
  obtain ⟨rfl, hL⟩ := hw
  exact Prog.meets_pure trivial ⟨rfl, rfl, hdeferred, hL⟩

def visitedNames (r : Reconciler) (plan : RoutePlan) : List String :=
  match splitPlan plan (additionalDevices r) with
  | .error _ => []
  | .ok plans => sortStrings plans.keys

theorem exists_splitPlan (hdevices : ∀ route ∈ plan.routes, route.device ≠ "")
    (additional : List String) : ∃ plans, splitPlan plan additional = .ok plans := by
  cases hsplit : splitPlan plan additional with
  | ok plans => exact ⟨plans, rfl⟩
  | error e =>
    obtain ⟨done, route, rest, out, hroutes, -, herror⟩ := ExceptFold.foldlM_eq_error_iff.mp hsplit
    unfold splitRoute at herror
    rw [if_neg (hdevices route (by rw [hroutes]; simp))] at herror
    cases herror

omit [Truthful h] in
theorem mem_visitedNames (hdevices : ∀ route ∈ plan.routes, route.device ≠ "") :
    n ∈ visitedNames r plan ↔ Visited r plan n := by
  obtain ⟨plans, hsplit⟩ := exists_splitPlan hdevices (additionalDevices r)
  rw [← mem_names_iff hsplit]
  unfold visitedNames
  rw [hsplit]

theorem nodup_visitedNames (r : Reconciler) (plan : RoutePlan) : (visitedNames r plan).Nodup := by
  unfold visitedNames
  cases splitPlan plan (additionalDevices r) with
  | error e => exact nodup_nil
  | ok plans => exact nodup_sortStrings.mpr plans.keys_nodup

/-- **An `Apply` gets through** when the outside serves the plan and the data-plane verifier
consents. The devices that are down become pending. -/
theorem ends_apply (hserves : Serves h plan down)
    (hnew : r.committedPlan.map RoutePlan.id ≠ some plan.id)
    (hdevices : ∀ route ∈ plan.routes, route.device ≠ "")
    (hnames : Prepared plan down L (visitedNames r plan))
    (hverify : ∀ w : World, w.ledger = settledOn plan ((visitedNames r plan).filter (!down ·)) L →
      (h (.verify plan) w).1 = .ok ()) :
    Ends h (· = L) (apply cfg r plan) (Committed plan down L (visitedNames r plan)) := by
  obtain ⟨plans, hsplit⟩ := exists_splitPlan hdevices (additionalDevices r)
  have hvisited : visitedNames r plan = sortStrings plans.keys := by
    unfold visitedNames
    rw [hsplit]
  rw [hvisited] at hnames hverify ⊢
  have hnodup : (sortStrings plans.keys).Nodup := nodup_sortStrings.mpr plans.keys_nodup
  have hnow : Ends h (· = L) Ask.now fun a L' => L' = L ∧ ∃ w, a = (h .now w).1 :=
    triple_answer (c := .now) trivial fun _ _ => trivial
  have htopology : Ends h (· = L) Ask.topology fun a L' => L' = L ∧ ∃ w, a = (h .topology w).1 :=
    triple_answer (c := .topology) trivial fun _ _ => trivial
  refine hnow.bind fun started => Prog.Triple.of_imp fun hstarted => ?_
  refine htopology.bind fun topology => Prog.Triple.of_imp fun hanswer => ?_
  have hvalid : Validation.plan plan topology started = .ok () := by
    obtain ⟨w, rfl⟩ := hstarted
    obtain ⟨w', rfl⟩ := hanswer
    exact hserves.valid w' w
  have hsplit' : splitPlan plan (additionalDevices (r.begin plan started)) = .ok plans := hsplit
  have hnew' : ¬ (r.begin plan started).committedPlan.map RoutePlan.id = some plan.id := hnew
  rw [hvalid]
  rw [hsplit']
  dsimp only
  rw [if_neg hnew']
  refine (ends_transact hserves hnames hnodup (fun n hn => planOf_eq hsplit hn) hverify).bind
    fun result w hw => ?_
  obtain ⟨⟨s, rfl, hdeferred⟩, hL⟩ := hw
  exact ends_record hserves hdeferred w hL

end Transaction

/-! ### A verifier that never consents -/

section

variable {cfg : Config} {h : Handler iface World} [Truthful h] {plan : RoutePlan}
  {plans : Map RoutePlan}

omit [Truthful h] in
theorem ends_true {α : Type} (prog : Prog iface α) :
    Ends h (fun _ => True) prog fun _ _ => True := by
  intro w _
  induction prog generalizing w with
  | done a => exact ⟨trivial, trivial⟩
  | call c k ih => exact ⟨trivial, ih _ _ trivial⟩

variable {r : Reconciler}

omit [Truthful h] in
theorem ends_fail {cause : String} {rollback : List String} :
    Ends h (fun _ => True) (fail cfg r cause rollback) fun o _ => o.err ≠ none := by
  refine (ends_true _).bind fun errs => ?_
  refine (ends_true _).bind fun finishedAt => ?_
  refine (ends_true _).bind fun result => ?_
  exact fun w _ => Prog.meets_pure trivial (Option.some_ne_none _)

variable (hverifier : cfg.verifier = true)
  (hverify : ∀ w : World, ∃ e, (h (.verify plan) w).1 = .error e)
include hverifier hverify

theorem ends_finalChecks_error {s : Staged} :
    Ends h (fun _ => True) (finalChecks cfg plan plans s) fun r _ => ∃ f, r = .error f := by
  refine (ends_true _).bind fun r => ?_
  cases r with
  | error e => exact fun w _ => Prog.meets_pure trivial ⟨_, rfl⟩
  | ok u =>
    refine (ends_true _).bind fun r => ?_
    cases r with
    | error e => exact fun w _ => Prog.meets_pure trivial ⟨_, rfl⟩
    | ok u =>
      have hrefused : Ends h (fun _ => True) (invoke cfg (Ask.verify plan)) fun r _ =>
          (∃ e, r = .error e) ∧ True :=
        ends_invoke_error (ends_call (c := .verify plan) fun w _ => ⟨hverify w, trivial⟩)
      rw [if_pos hverifier]
      refine hrefused.bind fun r w hw => ?_
      obtain ⟨⟨e, rfl⟩, -⟩ := hw
      exact Prog.meets_pure trivial ⟨_, rfl⟩

theorem ends_transact_error {names : List String} {status : ReconcileStatus} :
    Ends h (fun _ => True) (transact cfg plan plans names status) fun r _ => ∃ f, r = .error f := by
  refine (ends_true _).bind fun health => ?_
  refine (ends_true _).bind fun r => ?_
  cases r with
  | error f => exact fun w _ => Prog.meets_pure trivial ⟨f, rfl⟩
  | ok staged =>
    refine (ends_true _).bind fun r => ?_
    cases r with
    | error f => exact fun w _ => Prog.meets_pure trivial ⟨f, rfl⟩
    | ok status' =>
      refine (ends_finalChecks_error hverifier hverify).bind fun r w hw => ?_
      obtain ⟨f, rfl⟩ := hw
      exact Prog.meets_pure trivial ⟨f, rfl⟩

theorem ends_apply_error (hnew : r.committedPlan.map RoutePlan.id ≠ some plan.id) :
    Ends h (fun _ => True) (apply cfg r plan) fun o _ => o.err ≠ none := by
  refine (ends_true _).bind fun started => ?_
  refine (ends_true _).bind fun topology => ?_
  have hnew' : ¬ (r.begin plan started).committedPlan.map RoutePlan.id = some plan.id := hnew
  cases Validation.plan plan topology started with
  | error e => exact ends_fail
  | ok u =>
    cases splitPlan plan (additionalDevices (r.begin plan started)) with
    | error e => exact ends_fail
    | ok plans =>
      dsimp only
      rw [if_neg hnew']
      refine (ends_transact_error hverifier hverify).bind fun result w hw => ?_
      obtain ⟨f, rfl⟩ := hw
      exact ends_fail w trivial

end

end Reconcile
end StarFabric

import StarFabric.Reconcile.Transaction

/-!
# Triples for the stages of `Apply`

One triple for each stage, and from them the triple of the whole transaction
(`triple_program`). The crash condition is `Traced` throughout.
-/

namespace StarFabric.Reconcile

open Adapter EffectProgram Go List Option Prod

variable {cfg : Config} {env : ℕ → Env} {J P : Ledgers → Prop}

/-! ### Verification and health check -/

def Shows (planID : String) (routes : List RouteOperation) (device : Option Ledger) : Prop :=
  ∃ l, device = some l ∧ l.appliedPlanID = planID ∧ l.routes.Perm routes

theorem perm_of_sortRoutes_eq {a b : List RouteOperation} (h : sortRoutes a = sortRoutes b) :
    a.Perm b :=
  (sortRoutes_perm a).symm.trans (h ▸ sortRoutes_perm b)

variable {plans : Map RoutePlan}

theorem triple_verifyDevice {planID name : String} {L₁ : Ledgers} (hJ : J L₁) :
    LTriple cfg env J (· = L₁) (verifyDevice cfg planID plans name) fun r L =>
      L = L₁ ∧ (r = .ok () → Shows planID (planOf plans name).routes (L₁ name)) := by
  have hstate : LTriple cfg env J (· = L₁) (invoke cfg (Ask.state name))
      (OnResult (· = L₁) fun s L => L = L₁ ∧ ∃ l, L₁ name = some l ∧
        s.appliedPlanID = l.appliedPlanID ∧ s.routes = l.routes) := by
    refine triple_invoke (fun L h => h ▸ hJ) (fun s L h => h.1 ▸ hJ) ?_
    refine (triple_state hJ).conseq (fun _ h => h) fun r w h => ?_
    cases r with
    | ok s => exact ⟨h.1, h.2 s rfl⟩
    | error e => exact h.1
  refine hstate.bind fun r => ?_
  cases r with
  | error e =>
    exact Prog.Triple.pure (fun w h => h ▸ hJ) fun w h => ⟨h, nofun⟩
  | ok s =>
    dsimp only
    split_ifs with happ hroutes
    · exact Prog.Triple.pure (fun w h => h.1 ▸ hJ) fun w h =>
        ⟨h.1, nofun⟩
    · exact Prog.Triple.pure (fun w h => h.1 ▸ hJ) fun w h =>
        ⟨h.1, nofun⟩
    · refine Prog.Triple.pure (fun w h => h.1 ▸ hJ) fun w h => ⟨h.1, fun _ => ?_⟩
      obtain ⟨l, hl, happlied, hls⟩ := h.2
      rw [not_or, not_not] at happ
      rw [not_not] at hroutes
      exact ⟨l, hl, happlied ▸ happ.2, hls ▸ perm_of_sortRoutes_eq hroutes⟩

variable {names : List String}

theorem firstError_ok {B : String → Except String Unit → Prop} {rs : List (Except String Unit)}
    (h : List.Forall₂ B names rs) (hok : firstError rs = .ok ()) : ∀ n ∈ names, B n (.ok ()) := by
  induction h with
  | nil => exact nofun
  | @cons n r names rs hr _ ih =>
    cases r with
    | error e => exact absurd hok (by simp [firstError])
    | ok u =>
      intro m hm
      rcases mem_cons.mp hm with rfl | hm
      · exact hr
      · exact ih hok m hm

theorem triple_verify {planID : String} (hJ : ∀ L, P L → J L) :
    LTriple cfg env J P (verify cfg planID names plans) fun r L =>
      P L ∧ (r = .ok () → ∀ n ∈ names, Shows planID (planOf plans n).routes (L n)) := by
  intro w hw
  have hread : LTriple cfg env J (· = w.ledger)
      (readDevices cfg names (verifyDevice cfg planID plans)) fun rs L => L = w.ledger ∧
        List.Forall₂ (fun n r => r = .ok () → Shows planID (planOf plans n).routes (w.ledger n))
          names rs :=
    triple_readDevices (fun L h => h ▸ hJ _ hw) (fun n _ => triple_verifyDevice (hJ _ hw)) nofun
  refine (hread w rfl).bind fun rs w' hJ' h => Prog.meets_pure hJ' ?_
  rw [h.1]
  exact ⟨hw, fun hok n hn => firstError_ok h.2 hok n hn rfl⟩

theorem triple_precheckDevice {name : String} (hJ : ∀ L, P L → J L) :
    LTriple cfg env J P (precheckDevice cfg name) fun _ => P := by
  have hhealth : LTriple cfg env J P (invoke cfg (Ask.health name)) fun _ => P :=
    triple_invoke_keep hJ (triple_quiet (c := .health name) trivial hJ)
  have hstate : LTriple cfg env J P (invoke cfg (Ask.state name)) fun _ => P :=
    triple_invoke_keep hJ (triple_quiet (c := .state name) trivial hJ)
  refine hhealth.bind fun r => ?_
  cases r with
  | error e => exact Prog.Triple.pure (fun w => hJ _) fun w h => h
  | ok u =>
    refine hstate.bind fun r => ?_
    cases r with
    | error e => exact Prog.Triple.pure (fun w => hJ _) fun w h => h
    | ok s =>
      dsimp only
      split_ifs
      · exact Prog.Triple.pure (fun w => hJ _) fun w h => h
      · exact Prog.Triple.pure (fun w => hJ _) fun w h => h

theorem triple_precheck (hJ : ∀ L, P L → J L) :
    LTriple cfg env J P (readDevices cfg names (precheckDevice cfg)) fun rs L =>
      P L ∧ names.length = rs.length := by
  refine (triple_readDevices (B := fun _ _ => True) hJ (fun n _ => ?_) fun _ _ => trivial).conseq
    (fun _ h => h) fun rs w h => ⟨h.1, h.2.length_eq⟩
  exact (triple_precheckDevice hJ).conseq (fun _ h => h) fun _ _ h => ⟨h, trivial⟩

theorem triple_revalidate {plan : RoutePlan} (hJ : ∀ L, P L → J L) :
    LTriple cfg env J P (revalidate plan) fun _ => P := by
  refine (triple_topology hJ).bind fun topology => ?_
  refine (triple_now hJ).bind fun now => ?_
  exact Prog.Triple.pure (fun w => hJ _) fun w h => h

/-! ### Prepare and commit -/

section

variable {plan : RoutePlan} {plans : Map RoutePlan} {before : Ledgers} {names : List String}

def AllIdle (L : Ledgers) : Prop := ∀ n l, L n = some l → Idle l

variable {name : String} {touched : List String}

theorem triple_prepare (hidle : AllIdle before) (hnew : name ∉ touched) :
    LTriple cfg env (Traced plan before)
      (fun L => Holding plan before L touched ∧ (L name).isSome)
      (Ask.prepare name (plan.forDevice name))
      (OnResult (fun L => Holding plan before L touched ∧ (L name).isSome)
        fun _ L => Holding plan before L (touched ++ [name])) := by
  refine triple_call (c := .prepare name (plan.forDevice name)) (fun L h => h.1.traced)
    (fun r L h => ?_) fun w h => ?_
  · cases r with
    | ok u => exact Holding.traced h
    | error e => exact Holding.traced h.1
  obtain ⟨hhold, hsome⟩ := h
  obtain ⟨l₀, hl⟩ := isSome_iff_exists.mp hsome
  have h₀ : before name = some l₀ := (hhold.untouched name hnew).symm.trans hl
  have hnone : l₀.prepared (plan.forDevice name).id = none := congrFun (hidle name l₀ h₀) _
  obtain ⟨hsame, hok⟩ | ⟨hok, hstage, hne, -⟩ := handle_prepare cfg env (plan.forDevice name) hl
  · rw [hsame]
    cases hr : (handle cfg env (.prepare name (plan.forDevice name)) w).1 with
    | error e => exact ⟨hhold, hsome⟩
    | ok u =>
      -- accepted without staging: the plan runs already, as on an idle device none is prepared
      rcases hok hr with happ | hprep
      · have htouch := hhold.touch h₀ (.running happ.symm)
        rw [← hl, Function.update_eq_self] at htouch
        exact htouch
      · exact absurd hnone (isSome_iff_ne_none.mp hprep)
  · rw [hok, hstage]
    exact hhold.touch h₀ (.staged hne.symm)

/-- What the prepare loop leaves after `todo`, a part of the names. -/
structure PrepareOk (plan : RoutePlan) (before : Ledgers) (names todo : List String) (s : Staged)
    (L : Ledgers) : Prop where
  holding : Holding plan before L s.prepared
  within : ∀ n ∈ s.prepared, n ∈ names
  active : s.activeNames = s.prepared
  nodup : s.prepared.Nodup
  planID : s.status.planID = plan.id
  covered : ∀ n ∈ todo, n ∈ s.prepared ∨ n ∈ s.deferred

structure FailureOk (plan : RoutePlan) (before : Ledgers) (names : List String) (f : Failure)
    (L : Ledgers) : Prop where
  holding : Holding plan before L f.rollback
  within : ∀ n ∈ f.rollback, n ∈ names
  nodup : f.rollback.Nodup
  planID : f.status.planID = plan.id

def StageOk {α : Type} (plan : RoutePlan) (before : Ledgers) (names : List String)
    (Q : α → Ledgers → Prop) : Except Failure α → Ledgers → Prop
  | .ok a => Q a
  | .error f => FailureOk plan before names f

section PrepareLoop

variable {done : List String} {s : Staged} {L L' : Ledgers} {name : String}

theorem PrepareOk.failure (h : PrepareOk plan before names done s L) (failed : List String)
    (cause : String) :
    FailureOk plan before names ⟨{ s.status with failedDevices := failed }, cause, s.prepared⟩ L :=
  ⟨h.holding, h.within, h.nodup, h.planID⟩

theorem PrepareOk.defer (h : PrepareOk plan before names done s L) (deferred : List String) :
    PrepareOk plan before names (done ++ [name]) { s with
        deferred := s.deferred ++ [name]
        status := { s.status with deferredDevices := deferred } } L := by
  refine ⟨h.holding, h.within, h.active, h.nodup, h.planID, fun n hn => ?_⟩
  rcases mem_append.mp hn with hn | hn
  · exact (h.covered n hn).imp_right (mem_append_left _)
  · exact .inr (mem_append_right _ hn)

theorem PrepareOk.prepare (h : PrepareOk plan before names done s L) (hname : name ∈ names)
    (hnew : name ∉ s.prepared) (hholding : Holding plan before L' (s.prepared ++ [name]))
    (prepared : List String) :
    PrepareOk plan before names (done ++ [name]) { s with
        prepared := s.prepared ++ [name]
        activeNames := s.activeNames ++ [name]
        status := { s.status with preparedDevices := prepared } } L' := by
  refine ⟨hholding, fun n hn => ?_, congrArg (· ++ [name]) h.active, ?_, h.planID, fun n hn => ?_⟩
  · rcases mem_append.mp hn with hn | hn
    · exact h.within n hn
    · exact mem_singleton.mp hn ▸ hname
  · exact nodup_append_comm.mp (nodup_cons.mpr ⟨hnew, h.nodup⟩)
  · rcases mem_append.mp hn with hn | hn
    · exact (h.covered n hn).imp_left (mem_append_left _)
    · exact .inl (mem_append_right _ hn)

theorem triple_prepareLoop (hidle : AllIdle before) (done : List String)
    (todo : List (String × Except String Unit)) (s : Staged)
    (hplans : ∀ n ∈ names, planOf plans n = plan.forDevice n)
    (hsub : ∀ n ∈ todo.map fst, n ∈ names)
    (hnodup : (s.prepared ++ todo.map fst).Nodup) :
    LTriple cfg env (Traced plan before) (PrepareOk plan before names done s)
      (prepareLoop cfg plans todo s)
      (StageOk plan before names (PrepareOk plan before names (done ++ todo.map fst))) := by
  induction todo generalizing s done with
  | nil =>
    refine Prog.Triple.pure (fun w h => h.holding.traced) fun w h => ?_
    simpa [StageOk] using h
  | cons entry rest ih =>
    obtain ⟨name, health⟩ := entry
    have hname : name ∈ names := hsub name (by simp)
    have hplan : planOf plans name = plan.forDevice name := hplans name hname
    have hnew : name ∉ s.prepared := by
      have := (nodup_append.mp hnodup).2.2
      exact fun hn => this name hn name (by simp) rfl
    have hrest : ∀ n ∈ rest.map fst, n ∈ names :=
      fun n hn => hsub n (mem_cons_of_mem _ hn)
    have hlist : done ++ (name :: rest.map fst) = (done ++ [name]) ++ rest.map fst := by
      simp
    refine (triple_get fun L h => h.holding.traced).bind fun registered => ?_
    cases registered with
    | false =>
      exact Prog.Triple.pure (fun w h => h.1.holding.traced) fun w h => h.1.failure _ _
    | true =>
      intro w hw
      obtain ⟨hok, hsome⟩ := hw
      cases health with
      | error e =>
        cases hroutes : (planOf plans name).routes with
        | nil =>
          -- the device has nothing to keep, so its cleanup waits
          refine (ih (done ++ [name]) _ hrest ?_ w (hok.defer _)).mono fun r w' _ h => hlist ▸ h
          exact hnodup.sublist (List.Sublist.append_left (sublist_cons_self _ _) _)
        | cons _ _ => exact Prog.meets_pure hok.holding.traced (hok.failure _ _)
      | ok u =>
        rw [hplan]
        have hprepare : LTriple cfg env (Traced plan before)
            (fun L => Holding plan before L s.prepared ∧ (L name).isSome)
            (invoke cfg (Ask.prepare name (plan.forDevice name)))
            (OnResult (fun L => Holding plan before L s.prepared ∧ (L name).isSome)
              fun _ L => Holding plan before L (s.prepared ++ [name])) :=
          triple_invoke (fun L h => h.1.traced) (fun _ L h => h.traced) (triple_prepare hidle hnew)
        refine (hprepare w ⟨hok.holding, hsome.symm⟩).bind fun r w' _ h => ?_
        cases r with
        | error e =>
          -- a `Prepare` that fails has staged nothing
          exact Prog.meets_pure (Holding.traced h.1) ⟨h.1, hok.within, hok.nodup, hok.planID⟩
        | ok u =>
          refine (ih (done ++ [name]) _ hrest ?_ w' (hok.prepare hname hnew h _)).mono
            fun r w' _ h => hlist ▸ h
          simpa [append_assoc] using hnodup

end PrepareLoop

theorem triple_commit (hn : name ∈ touched) :
    LTriple cfg env (Traced plan before) (fun L => Holding plan before L touched)
      (Ask.commit name plan.id) fun _ L => Holding plan before L touched := by
  refine triple_call (c := .commit name plan.id) (fun L h => h.traced) (fun _ L h => h.traced)
    fun w h => ?_
  obtain ⟨l₀, l, h₀, hl, ht⟩ := h.touched name hn
  obtain hsame | ⟨tx, htx, hne, hinstall⟩ := handle_commit cfg env plan.id hl
  · rw [hsame]; exact h
  · rw [hinstall]; exact h.update hn h₀ (ht.install htx hne)

theorem commitResults_planID (status : ReconcileStatus)
    (results : List (String × Except String Unit)) :
    (commitResults status results).1.planID = status.planID := by
  induction results generalizing status with
  | nil => rfl
  | cons entry rest ih =>
    obtain ⟨name, r⟩ := entry
    cases r with
    | ok u => exact ih _
    | error e => exact ih _

theorem triple_commitLoop (hwithin : ∀ n ∈ touched, n ∈ names) (hnodup : touched.Nodup)
    (batches : List (List String)) (hsub : ∀ n ∈ batches.flatten, n ∈ touched)
    (status : ReconcileStatus) (hid : status.planID = plan.id) :
    LTriple cfg env (Traced plan before) (fun L => Holding plan before L touched)
      (commitLoop cfg plan plans touched batches status)
      (StageOk plan before names fun status L => Holding plan before L touched ∧
        status.planID = plan.id) := by
  induction batches generalizing status with
  | nil => exact Prog.Triple.pure (fun w h => h.traced) fun w h => ⟨h, hid⟩
  | cons batch rest ih =>
    have hbatch : ∀ n ∈ batch, n ∈ touched := fun n hn =>
      hsub n (by rw [flatten_cons]; exact mem_append_left _ hn)
    have hrest : ∀ n ∈ rest.flatten, n ∈ touched := fun n hn =>
      hsub n (by rw [flatten_cons]; exact mem_append_right _ hn)
    -- a commit that fails leaves its device touched, so the batch needs no account of successes
    have hcommits : LTriple cfg env (Traced plan before) (fun L => Holding plan before L touched)
        (readDevices cfg batch fun name => invoke cfg (Ask.commit name plan.id))
        fun rs L => Holding plan before L touched ∧ List.Forall₂ (fun _ _ => True) batch rs :=
      triple_readDevices (fun L h => h.traced)
        (fun n hn => (triple_invoke_keep (fun L h => h.traced)
          (triple_commit (hbatch n hn))).conseq (fun _ h => h) fun _ _ h => ⟨h, trivial⟩)
        fun _ _ => trivial
    have hvalid : LTriple cfg env (Traced plan before) (fun L => Holding plan before L touched)
        (revalidate plan) fun _ L => Holding plan before L touched :=
      triple_revalidate fun L h => h.traced
    refine hvalid.bind fun r => ?_
    cases r with
    | error e => exact Prog.Triple.pure (fun w h => h.traced) fun w h => ⟨h, hwithin, hnodup, hid⟩
    | ok u =>
      refine hcommits.bind fun results => ?_
      have hid' := commitResults_planID status (batch.zip results)
      rw [hid] at hid'
      cases hres : commitResults status (batch.zip results) with
      | mk status' errs =>
        rw [hres] at hid'
        cases errs with
        | cons err errs =>
          exact Prog.Triple.pure (fun w h => h.1.traced) fun w h => ⟨h.1, hwithin, hnodup, hid'⟩
        | nil =>
          have hverify : LTriple cfg env (Traced plan before)
              (fun L => Holding plan before L touched) (verify cfg plan.id batch plans)
              fun r L => Holding plan before L touched ∧ (r = .ok () →
                ∀ n ∈ batch, Shows plan.id (planOf plans n).routes (L n)) :=
            triple_verify fun L h => h.traced
          refine (hverify.conseq (fun w h => h.1) fun r w h => h.1).bind fun r => ?_
          cases r with
          | error e =>
            exact Prog.Triple.pure (fun w h => h.traced) fun w h => ⟨h, hwithin, hnodup, hid'⟩
          | ok u => exact ih hrest status' hid'

theorem triple_finalChecks {s : Staged} (hactive : s.activeNames = s.prepared)
    (hwithin : ∀ n ∈ s.prepared, n ∈ names) (hnodup : s.prepared.Nodup)
    (hid : s.status.planID = plan.id) :
    LTriple cfg env (Traced plan before) (fun L => Holding plan before L s.prepared)
      (finalChecks cfg plan plans s)
      (StageOk plan before names fun status L => (Holding plan before L s.prepared ∧
        ∀ n ∈ s.prepared, Shows plan.id (planOf plans n).routes (L n)) ∧
        status.planID = plan.id) := by
  have hvalid : LTriple cfg env (Traced plan before) (fun L => Holding plan before L s.prepared)
      (revalidate plan) fun _ L => Holding plan before L s.prepared :=
    triple_revalidate fun L h => h.traced
  refine hvalid.bind fun r => ?_
  cases r with
  | error e => exact Prog.Triple.pure (fun w h => h.traced) fun w h => ⟨h, hwithin, hnodup, hid⟩
  | ok u =>
    have hverify : LTriple cfg env (Traced plan before)
        (fun L => Holding plan before L s.prepared) (verify cfg plan.id s.activeNames plans)
        fun r L => Holding plan before L s.prepared ∧ (r = .ok () →
          ∀ n ∈ s.activeNames, Shows plan.id (planOf plans n).routes (L n)) :=
      triple_verify fun L h => h.traced
    refine hverify.bind fun r => ?_
    cases r with
    | error e =>
      exact Prog.Triple.pure (fun w h => h.1.traced) fun w h => ⟨h.1, hwithin, hnodup, hid⟩
    | ok u =>
      have hshow : ∀ w : World, (Holding plan before w.ledger s.prepared ∧
          ((Except.ok u : Except String Unit) = .ok () → ∀ n ∈ s.activeNames,
            Shows plan.id (planOf plans n).routes (w.ledger n))) →
          Holding plan before w.ledger s.prepared ∧
            ∀ n ∈ s.prepared, Shows plan.id (planOf plans n).routes (w.ledger n) :=
        fun w h => ⟨h.1, hactive ▸ h.2 rfl⟩
      split_ifs
      · -- the external verifier reads only
        have hverifier : LTriple cfg env (Traced plan before)
            (fun L => Holding plan before L s.prepared ∧
              ∀ n ∈ s.prepared, Shows plan.id (planOf plans n).routes (L n))
            (invoke cfg (Ask.verify plan))
            fun _ L => Holding plan before L s.prepared ∧
              ∀ n ∈ s.prepared, Shows plan.id (planOf plans n).routes (L n) :=
          triple_invoke_keep (fun L h => h.1.traced)
            (triple_quiet (c := .verify plan) trivial fun L h => h.1.traced)
        refine (hverifier.conseq hshow fun _ _ h => h).bind fun r => ?_
        cases r with
        | error e =>
          exact Prog.Triple.pure (fun w h => h.1.traced) fun w h => ⟨h.1, hwithin, hnodup, hid⟩
        | ok u => exact Prog.Triple.pure (fun w h => h.1.traced) fun w h => ⟨h, hid⟩
      · exact Prog.Triple.pure (fun w h => h.1.traced) fun w h => ⟨hshow w h, hid⟩

/-! ### The transaction -/

structure TransactOk (plan : RoutePlan) (before : Ledgers) (names : List String) (s : Staged)
    (L : Ledgers) : Prop where
  holding : Holding plan before L s.prepared
  within : ∀ n ∈ s.prepared, n ∈ names
  nodup : s.prepared.Nodup
  planID : s.status.planID = plan.id
  verified : ∀ n ∈ s.prepared, Shows plan.id (plan.share n) (L n)
  shown : ∀ n ∈ names, n ∈ s.deferred ∨ Shows plan.id (plan.share n) (L n)

theorem triple_transact {status : ReconcileStatus}
    (hidle : AllIdle before) (hnodup : names.Nodup)
    (hplans : ∀ n ∈ names, planOf plans n = plan.forDevice n) (hid : status.planID = plan.id) :
    LTriple cfg env (Traced plan before) (· = before) (transact cfg plan plans names status)
      (StageOk plan before names (TransactOk plan before names)) := by
  have hprecheck : LTriple cfg env (Traced plan before) (· = before)
      (readDevices cfg names (precheckDevice cfg))
      fun rs L => L = before ∧ names.length = rs.length :=
    triple_precheck fun L h => h ▸ (Holding.nil plan before).traced
  refine hprecheck.bind fun health => ?_
  refine Prog.Triple.of_imp fun hlen => ?_
  have hzip : (names.zip health).map fst = names := map_fst_zip (le_of_eq hlen)
  refine Prog.Triple.bind ((triple_prepareLoop hidle [] (names.zip health)
    { status := { status with phase := .preparing } } hplans
    (by rw [hzip]; exact fun _ hn => hn) (by rw [hzip]; exact hnodup)).conseq
    (fun w h => ?_) fun _ _ h => h) fun r => ?_
  · exact ⟨h ▸ Holding.nil plan before, nofun, rfl, nodup_nil, hid, nofun⟩
  cases r with
  | error f => exact Prog.Triple.pure (fun w h => h.holding.traced) fun w h => h
  | ok staged =>
    intro w hstaged
    obtain ⟨hhold, hwithin, hactive, hnodup', hid', hcovered⟩ := hstaged
    rw [nil_append, hzip] at hcovered
    have hchunks : (chunks cfg.batchSize staged.activeNames).flatten = staged.prepared := by
      rw [flatten_chunks cfg.batchSize_pos, hactive]
    refine (triple_commitLoop hwithin hnodup' _ (fun n hn => hchunks ▸ hn)
      { staged.status with phase := .committing } hid' w hhold).bind fun r w' _ h => ?_
    cases r with
    | error f => exact Prog.meets_pure h.holding.traced h
    | ok status' =>
      refine (triple_finalChecks (s := { staged with status := { status' with
        phase := .verifying } }) hactive hwithin hnodup' h.2 w' h.1).bind fun r w'' _ h => ?_
      cases r with
      | error f => exact Prog.meets_pure h.holding.traced h
      | ok status'' =>
        have hverified : ∀ n ∈ staged.prepared, Shows plan.id (plan.share n) (w''.ledger n) := by
          intro n hn
          have hshow := h.1.2 n hn
          rw [hplans n (hwithin n hn)] at hshow
          exact hshow
        refine Prog.meets_pure h.1.1.traced ⟨h.1.1, hwithin, hnodup', h.2, hverified, ?_⟩
        exact fun n hn => (hcovered n hn).symm.imp_right (hverified n)

end

end StarFabric.Reconcile

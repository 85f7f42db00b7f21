import StarFabric.Reconcile.Stages

/-!
# What `Apply` can do

`Applied` lists the three ways an `Apply` ends: the committed plan is still in place, the plan was
committed, or the transaction was rolled back (`apply_spec`). The devices it visits are those of the
plan, those of the plan committed before, and those whose cleanup is pending (`Visited`).
-/

namespace StarFabric.Reconcile

open Go EffectProgram Adapter ExceptFold Function List

/-! ### The devices of a plan -/

def Owned (r : Reconciler) (name : String) : Prop :=
  (∃ plan, r.committedPlan = some plan ∧ name ∈ plan.routes.map RouteOperation.device) ∨
    name ∈ r.pendingDevices

def Visited (r : Reconciler) (plan : RoutePlan) (name : String) : Prop :=
  Owned r name ∨ name ∈ plan.routes.map RouteOperation.device

theorem mem_additionalDevices {r : Reconciler} {name : String} :
    name ∈ additionalDevices r ↔ Owned r name := by
  unfold additionalDevices Owned
  rw [mem_foldl_appendMissing]
  refine or_congr_left ?_
  cases r.committedPlan with
  | none => simp
  | some plan =>
    rw [mem_foldl_appendMissing]
    simp

theorem lookup_foldl_insert (plan : RoutePlan) (names : List String) (out : Map RoutePlan)
    (name : String) :
    (names.foldl (fun out name => out.insert name { plan with routes := [] }) out).lookup name =
      if name ∈ names then some { plan with routes := [] } else out.lookup name := by
  induction names generalizing out with
  | nil => simp
  | cons head names ih =>
    rw [foldl_cons, ih]
    by_cases hmem : name ∈ names
    · rw [if_pos hmem, if_pos (mem_cons_of_mem head hmem)]
    · rw [if_neg hmem]
      by_cases hhead : name = head
      · rw [hhead, AList.lookup_insert, if_pos mem_cons_self]
      · rw [AList.lookup_insert_ne hhead, if_neg (by simp [hhead, hmem])]

/-- **What `splitPlan` returns**: for each device of the plan and each additional
device its part of the plan. -/
theorem splitPlan_ok {plan : RoutePlan} {additional : List String} {plans : Map RoutePlan}
    (h : splitPlan plan additional = .ok plans) (name : String) :
    plans.lookup name =
      if name ∈ additional ∨ name ∈ plan.routes.map RouteOperation.device then
        some (plan.forDevice name) else none := by
  -- the loop invariant is the claim for the routes already consumed
  refine foldlM_history (P := fun done out => ∀ name, out.lookup name =
      if name ∈ additional ∨ name ∈ done.map RouteOperation.device then
        some { plan with routes := done.filter fun route => route.device = name } else none)
    ?_ [] ?_ h name
  · intro done route out out' hout hstep name
    unfold splitRoute at hstep
    split_ifs at hstep with hdevice
    cases hstep
    by_cases hname : name = route.device
    · subst hname
      rw [AList.lookup_insert, if_pos (by simp), hout]
      have hroutes : (Option.getD (if route.device ∈ additional ∨
            route.device ∈ done.map RouteOperation.device then
          some { plan with routes := done.filter fun r => r.device = route.device } else none)
          { plan with routes := [] } : RoutePlan) =
          { plan with routes := done.filter fun r => r.device = route.device } := by
        split_ifs with hmem
        · rfl
        · have hnil : (done.filter fun r => r.device = route.device) = [] := by
            rw [filter_eq_nil_iff]
            intro r hr hdev
            exact hmem (.inr (mem_map.mpr ⟨r, hr, by simpa using hdev⟩))
          rw [hnil]
          rfl
      rw [hroutes]
      simp
    · have hlast : (decide (route.device = name)) = false := by simpa using Ne.symm hname
      rw [AList.lookup_insert_ne hname, hout]
      simp [filter_append, hlast, hname]
  · intro name
    rw [lookup_foldl_insert]
    simp

section Split

variable {plan : RoutePlan} {r : Reconciler} {plans : Map RoutePlan}

variable {name : String}

theorem mem_names_iff (h : splitPlan plan (additionalDevices r) = .ok plans) :
    name ∈ sortStrings plans.keys ↔ Visited r plan name := by
  rw [mem_sortStrings, ← AList.mem_keys, ← AList.lookup_isSome, splitPlan_ok h]
  unfold Visited
  rw [← mem_additionalDevices]
  split_ifs with hv
  · exact ⟨fun _ => hv, fun _ => rfl⟩
  · exact ⟨nofun, fun h => absurd h hv⟩

theorem planOf_eq (h : splitPlan plan (additionalDevices r) = .ok plans)
    (hn : name ∈ sortStrings plans.keys) : planOf plans name = plan.forDevice name := by
  have hv := (mem_names_iff h).mp hn
  unfold Visited at hv
  rw [← mem_additionalDevices] at hv
  unfold planOf
  rw [splitPlan_ok h, if_pos hv]
  rfl

end Split

/-! ### Failure and record -/

section

variable {cfg : Config} {env : ℕ → Env} {J P : Ledgers → Prop} {plan : RoutePlan}
  {before : Ledgers} {names : List String}

variable {r : Reconciler}

theorem triple_persist (hJ : ∀ L, P L → J L) : LTriple cfg env J P (persist cfg r) fun _ => P := by
  unfold persist
  split_ifs
  · exact Prog.Triple.pure (fun w => hJ _) fun w h => h
  · exact triple_quiet (c := .write _) trivial hJ

variable {now : Ledgers} {back : List String} {n : String}

theorem Undoing.step {l : Ledger} (h : Undoing plan before now names back) (hn : n ∈ names)
    (hnew : n ∉ back) (hl : now n = some l) :
    Undoing plan before (update now n (some (l.rollback plan.id))) names (back ++ [n]) := by
  refine ⟨fun m hm => ?_, fun m hm hback => ?_, fun m hm => ?_⟩
  · by_cases hmn : m = n
    · subst hmn
      obtain ⟨l₀, l', h₀, hl', ht⟩ := h.touched m hn hnew
      cases hl.symm.trans hl'
      exact ⟨l₀, _, h₀, update_self _ _ _, l, ht, rfl⟩
    · rw [update_of_ne hmn]
      exact h.undone m ((mem_append.mp hm).resolve_right fun hm => hmn (mem_singleton.mp hm))
  · rw [mem_append, not_or, mem_singleton] at hback
    rw [update_of_ne hback.2]
    exact h.touched m hm hback.1
  · rw [update_of_ne (fun hmn : m = n => hm (hmn ▸ hn))]
    exact h.untouched m hm

theorem triple_rollbackDevice (hn : n ∈ names) (hnew : n ∉ back) :
    LTriple cfg env (Traced plan before) (fun L => Undoing plan before L names back)
      (rollbackDevice plan.id n) fun _ L => Undoing plan before L names (back ++ [n]) := by
  have htraced : ∀ L, Undoing plan before L names back → Traced plan before L :=
    fun L h => h.traced
  refine (triple_get htraced).bind fun registered => ?_
  cases registered with
  | false =>
    -- a touched device is registered
    intro w hw
    obtain ⟨l₀, l, -, hl, -⟩ := hw.1.touched n hn hnew
    exact absurd hw.2 (by simp [hl])
  | true =>
    have hroll : LTriple cfg env (Traced plan before)
        (fun L => Undoing plan before L names back) (Ask.rollback n plan.id)
        fun _ L => Undoing plan before L names (back ++ [n]) := by
      refine triple_call (c := .rollback n plan.id) htraced (fun _ L h => h.traced) fun w h => ?_
      obtain ⟨l₀, l, -, hl, -⟩ := h.touched n hn hnew
      rw [handle_rollback hl]
      exact h.step hn hnew hl
    refine (hroll.conseq (fun w h => h.1) fun _ _ h => h).bind fun r => ?_
    cases r with
    | ok u => exact Prog.Triple.pure (fun w h => h.traced) fun w h => h
    | error e => exact Prog.Triple.pure (fun w h => h.traced) fun w h => h

structure FailOk (r : Reconciler) (plan : RoutePlan) (before : Ledgers) (names : List String)
    (o : Outcome) (L : Ledgers) : Prop where
  err : o.err ≠ none
  committedPlan : o.reconciler.committedPlan = r.committedPlan
  pendingDevices : o.reconciler.pendingDevices = r.pendingDevices
  rolledBack : RolledBack plan before L names

theorem triple_fail {cause : String} (hnodup : names.Nodup) (hid : r.status.planID = plan.id) :
    LTriple cfg env (Traced plan before) (fun L => Holding plan before L names)
      (fail cfg r cause names) (FailOk r plan before names) := by
  have hloop : LTriple cfg env (Traced plan before)
      (fun L => Undoing plan before L names []) (Prog.forEach (rollbackDevice plan.id) names.reverse)
      fun errs L => Undoing plan before L names names.reverse ∧
        List.Forall₂ (fun _ _ => True) names.reverse errs := by
    refine Prog.Triple.forEach (A := fun back (w : World) => Undoing plan before w.ledger names back)
      (B := fun _ _ => True) (fun back w h => h.traced) fun back n rest hl => ?_
    have hn : n ∈ names := mem_reverse.mp (hl ▸ by simp)
    have hnew : n ∉ back := by
      have hrev := nodup_reverse.mpr hnodup
      rw [hl, nodup_append] at hrev
      exact fun hb => hrev.2.2 n hb n (by simp) rfl
    exact (triple_rollbackDevice hn hnew).conseq (fun _ h => h) fun _ _ h => ⟨h, trivial⟩
  unfold fail
  rw [hid]
  refine (hloop.conseq (fun w h => h.undoing) fun errs w h => h.1).bind fun errs => ?_
  have htraced : ∀ L, Undoing plan before L names names.reverse → Traced plan before L :=
    fun L h => h.traced
  refine (triple_now htraced).bind fun finishedAt => ?_
  refine (triple_persist htraced).bind fun _ => ?_
  refine Prog.Triple.pure (fun w h => h.traced) fun w h => ⟨by simp, rfl, rfl, ?_⟩
  exact ⟨fun n hn => h.undone n (mem_reverse.mpr hn), h.untouched⟩

inductive Applied (r : Reconciler) (plan : RoutePlan) (before : Ledgers) (o : Outcome)
    (now : Ledgers) : Prop where
  | noop (err : o.err = none) (committedPlan : o.reconciler.committedPlan = r.committedPlan)
      (pendingDevices : o.reconciler.pendingDevices = r.pendingDevices) (same : now = before)
      (shown : ∀ n, Visited r plan n → Shows plan.id (plan.share n) (now n))
  | committed (err : o.err = none) (committedPlan : o.reconciler.committedPlan = some plan)
      (names : List String) (within : ∀ n ∈ names, Visited r plan n)
      (holding : Holding plan before now names)
      (verified : ∀ n ∈ names, Shows plan.id (plan.share n) (now n))
      (shown : ∀ n, Visited r plan n → n ∈ o.reconciler.pendingDevices ∨
        Shows plan.id (plan.share n) (now n))
  | failed (names : List String) (within : ∀ n ∈ names, Visited r plan n)
      (id_ne : names ≠ [] → plan.id ≠ "") (failed : FailOk r plan before names o now)

theorem Applied.traced {o : Outcome} (h : Applied r plan before o now) :
    Traced plan before now := by
  cases h with
  | noop _ _ _ hsame _ => rw [hsame]; exact (Holding.nil plan _).traced
  | committed _ _ _ _ hhold _ _ => exact hhold.traced
  | failed names _ _ hfail =>
    intro n l hl
    by_cases hn : n ∈ names
    · obtain ⟨l₀, l', h₀, hl', hu⟩ := hfail.rolledBack.undone n hn
      cases hl.symm.trans hl'
      exact ⟨l₀, h₀, .inr (.inr hu)⟩
    · exact ⟨l, (hfail.rolledBack.untouched n hn).symm.trans hl, .inl rfl⟩

theorem triple_record {s : Staged} (hid : plan.id ≠ "") (hwithin : ∀ n ∈ names, Visited r plan n)
    (hnames : ∀ n, Visited r plan n → n ∈ names) :
    LTriple cfg env (Traced plan before) (TransactOk plan before names s)
      (record cfg r plan s) (Applied r plan before) := by
  have htraced : ∀ L, TransactOk plan before names s L → Traced plan before L :=
    fun L h => h.holding.traced
  refine (triple_now htraced).bind fun finishedAt => ?_
  refine (triple_persist htraced).bind fun result => ?_
  cases result with
  | ok u =>
    refine Prog.Triple.pure (fun w h => h.holding.traced) fun w h => ?_
    exact .committed rfl rfl s.prepared (fun n hn => hwithin n (h.within n hn)) h.holding
      h.verified fun n hn => h.shown n (hnames n hn)
  | error e =>
    intro w h
    refine (triple_fail h.nodup h.planID w h.holding).mono fun o w' _ h' => ?_
    exact .failed s.prepared (fun n hn => hwithin n (h.within n hn)) (fun _ => hid)
      ⟨h'.err, h'.committedPlan, h'.pendingDevices, h'.rolledBack⟩

theorem triple_program {plans : Map RoutePlan} (hidle : AllIdle before) (hne : plan.id ≠ "")
    (hid : r.status.planID = plan.id) (hsplit : splitPlan plan (additionalDevices r) = .ok plans) :
    LTriple cfg env (Traced plan before) (· = before)
      (program cfg r plan plans (sortStrings plans.keys)) (Applied r plan before) := by
  refine (triple_transact hidle (nodup_sortStrings.mpr plans.keys_nodup)
    (fun n hn => planOf_eq hsplit hn) hid).bind fun result => ?_
  have hvisited : ∀ n ∈ sortStrings plans.keys, Visited r plan n :=
    fun n hn => (mem_names_iff hsplit).mp hn
  cases result with
  | ok staged => exact triple_record hne hvisited fun n hn => (mem_names_iff hsplit).mpr hn
  | error f =>
    intro w h
    refine (triple_fail h.nodup h.planID w h.holding).mono fun o w' _ h' => ?_
    exact .failed f.rollback (fun n hn => hvisited n (h.within n hn)) (fun _ => hne)
      ⟨h'.err, h'.committedPlan, h'.pendingDevices, h'.rolledBack⟩

theorem triple_apply (hidle : AllIdle before) :
    LTriple cfg env (Traced plan before) (· = before) (apply cfg r plan)
      (Applied r plan before) := by
  have htraced : ∀ L, L = before → Traced plan before L :=
    fun L h => h ▸ (Holding.nil plan before).traced
  refine (triple_now htraced).bind fun started => ?_
  refine (triple_topology htraced).bind fun topology => ?_
  have hfail : ∀ e, LTriple cfg env (Traced plan before) (· = before)
      (fail cfg (r.begin plan started) e []) (Applied r plan before) := by
    intro e w h
    refine (triple_fail nodup_nil rfl w (h ▸ Holding.nil plan before)).mono fun o w' _ h' => ?_
    exact .failed [] nofun (fun h => absurd rfl h)
      ⟨h'.err, h'.committedPlan, h'.pendingDevices, h'.rolledBack⟩
  split
  · exact hfail _
  next hvalid =>
  split
  · exact hfail _
  next plans hsplit =>
  have hprogram : LTriple cfg env (Traced plan before) (· = before)
      (program cfg (r.begin plan started) plan plans (sortStrings plans.keys))
      (Applied r plan before) := by
    refine (triple_program hidle (Validation.plan_eq_ok_iff.mp hvalid).id_ne rfl hsplit).conseq
      (fun _ h => h) fun o w h => ?_
    -- `Applied` does not look at the status of the reconciler
    cases h with
    | noop err c p same shown => exact .noop err c p same shown
    | committed err c names within holding verified shown =>
      exact .committed err c names within holding verified shown
    | failed names within id_ne h =>
      exact .failed names within id_ne ⟨h.err, h.committedPlan, h.pendingDevices, h.rolledBack⟩
  split_ifs
  · refine (triple_verify htraced).bind fun result => ?_
    cases result with
    | ok u =>
      refine Prog.Triple.pure (fun w h => htraced _ h.1) fun w h => ?_
      refine .noop rfl rfl rfl h.1 fun n hn => ?_
      have hmem := (mem_names_iff hsplit).mpr hn
      have hshow := h.2 rfl n hmem
      rw [planOf_eq hsplit hmem] at hshow
      exact hshow
    | error e => exact hprogram.conseq (fun _ h => h.1) fun _ _ h => h
  · exact hprogram

theorem System.outcome_applied (s : System) (cfg : Config) (env : ℕ → Env) (plan : RoutePlan)
    (hidle : AllIdle s.world.ledger) :
    Applied s.reconciler plan s.world.ledger (s.outcome cfg env plan).1
      (s.outcome cfg env plan).2.ledger :=
  (triple_apply hidle s.world rfl).post

theorem System.stopped_traced (s : System) (cfg : Config) (env : ℕ → Env) (plan : RoutePlan)
    (hidle : AllIdle s.world.ledger) (calls : ℕ) :
    Traced plan s.world.ledger (s.stopped cfg env plan calls).ledger :=
  (triple_apply hidle s.world rfl).dropped calls

end

end StarFabric.Reconcile

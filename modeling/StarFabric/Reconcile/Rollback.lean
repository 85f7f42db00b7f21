import StarFabric.Reconcile.Safety

/-!
# A failed `Apply` undoes itself

A device that runs the plan already takes no part in an `Apply` of it. It is rolled back all the
same when another device fails, and if its history has an entry for the plan, this undoes the
earlier `Apply`. So a failed `Apply` restores every device when no visited device both runs the plan
and has it in its history (`Undoable`).
-/

namespace StarFabric.Reconcile

open Go EffectProgram Adapter Option

/-- No visited device runs the plan already and has its commit in its history. -/
def Undoable (s : System) (plan : RoutePlan) : Prop :=
  ∀ n l, s.world.ledger n = some l → Visited s.reconciler plan n →
    l.appliedPlanID = plan.id → l.history plan.id = none

def deviceTable (l : Ledger) : List RouteOperation × String := (l.routes, l.appliedPlanID)

theorem Undone.table {p : RoutePlan} {l₀ l : Ledger} (hidle : Idle l₀) (h : Undone p l₀ l)
    (hfresh : l₀.appliedPlanID = p.id → l₀.history p.id = none) :
    deviceTable l = deviceTable l₀ := by
  obtain ⟨-, hroutes, happ, -⟩ | ⟨happ, rfl⟩ := h.cases hidle
  · exact Prod.ext hroutes happ
  · have hnone : l₀.prepared p.id = none := congrFun hidle p.id
    unfold Ledger.rollback
    rw [hnone, hfresh happ]

/-- **A failed `Apply` undoes itself.** From every state that runs and process stops can
reach, an `Apply` that returns an error leaves the table of every device and the
committed plan and pending devices of the reconciler as they were, wherever it failed,
provided that the transaction is undoable. -/
theorem failed_apply_restores {cfg : Config} {env : ℕ → Env} {plans : Set RoutePlan}
    {s : System} {plan : RoutePlan} (h : Reachable cfg env plans (fun _ => True) s)
    (hundo : Undoable s plan) (herr : (s.outcome cfg env plan).1.err ≠ none) :
    (∀ n, ((s.outcome cfg env plan).2.ledger n).map deviceTable =
        (s.world.ledger n).map deviceTable) ∧
      (s.outcome cfg env plan).1.reconciler.committedPlan = s.reconciler.committedPlan ∧
      (s.outcome cfg env plan).1.reconciler.pendingDevices = s.reconciler.pendingDevices := by
  cases s.outcome_applied cfg env plan h.idle with
  | noop hok _ _ _ _ => exact absurd hok herr
  | committed hok _ _ _ _ _ _ => exact absurd hok herr
  | failed names hwithin _ hfail =>
    refine ⟨fun n => ?_, hfail.committedPlan, hfail.pendingDevices⟩
    by_cases hn : n ∈ names
    · obtain ⟨l₀, l, h₀, hl, hu⟩ := hfail.rolledBack.undone n hn
      rw [h₀, hl, map_some, map_some, hu.table (h.idle n l₀ h₀) (hundo n l₀ h₀ (hwithin n hn))]
    · rw [hfail.rolledBack.untouched n hn]

def commitFault : ℕ → Env := fun t => { calm t with fault := if t = 26 then .commit else .none }

theorem freshPair_undoable (plan : RoutePlan) : Undoable freshPair plan := by
  intro n l hl _ _
  rw [(Registry.ledger_new hl).2]

theorem failed_apply_restores_pair :
    (freshPair.outcome pairConfig commitFault planAB).1.err ≠ none ∧
      ((freshPair.outcome pairConfig commitFault planAB).2.ledger "a").map deviceTable =
        (freshPair.world.ledger "a").map deviceTable := by
  have herr : (freshPair.outcome pairConfig commitFault planAB).1.err ≠ none := by
    decide +kernel
  exact ⟨herr, (failed_apply_restores (freshPair_reachable commitFault {planAB} _)
    (freshPair_undoable planAB) herr).1 "a"⟩

/-- The plan is committed in the first 40 calls. Later the second router is down when it
is read, at calls 47 and 54. -/
def secondDown : ℕ → Env := fun t => { calm t with healthy := t ≠ 47 ∧ t ≠ 54 }

/-- Applying the committed plan again, with one router down, fails and takes the routes
of the other router away, although the plan stays committed. -/
theorem reapply_undoes_earlier_success :
    let s := freshPair.apply pairConfig secondDown planAB
    let final := s.outcome pairConfig secondDown planAB
    s.reconciler.committedPlan.map RoutePlan.id = some "ab" ∧
      (s.world.ledger "a").map deviceTable = some ([routeA], "ab") ∧
      final.1.err ≠ none ∧ final.1.status.phase = .rolledBack ∧
      final.1.reconciler.committedPlan.map RoutePlan.id = some "ab" ∧
      (final.2.ledger "a").map deviceTable = some ([], "") := by
  decide +kernel

end StarFabric.Reconcile

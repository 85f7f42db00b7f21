import StarFabric.Planner.Redundancy
import StarFabric.Go.Sort

/-!
# Intents of lower priority

When all intents of one group rank after those of another, the loop of `Build` has planned the whole
first group before it comes to the second (`orderIntents_eq_append`), so the first group is planned
as if it were alone. A plan holds the paths by the intent's id, so the ids of the two groups must
differ (`same_id_takes_paths`).
-/

namespace StarFabric

open Go ExceptFold List

def RoutePlan.routesOf (plan : RoutePlan) (id : String) : List RouteOperation :=
  plan.routes.filter fun route => route.intentID = id

namespace Planner

open Policy

/-- The intent `b` ranks after `a`: it has a lower priority, or the same priority and a larger
id. -/
def RanksAfter (b a : RouteIntent) : Prop :=
  b.priority < a.priority ∨ (b.priority = a.priority ∧ a.id < b.id)

def rank (intent : RouteIntent) : ℤᵒᵈ ×ₗ String := toLex (OrderDual.toDual intent.priority, intent.id)

theorem rank_lt_rank {a b : RouteIntent} : rank a < rank b ↔ RanksAfter b a := by
  unfold rank RanksAfter
  rw [Prod.Lex.toLex_lt_toLex, OrderDual.toDual_lt_toDual, OrderDual.toDual_inj,
    eq_comm (a := b.priority)]

theorem intentLess_by : LessBy intentLess rank := by
  intro a b
  rw [rank_lt_rank]
  unfold intentLess RanksAfter
  by_cases hpriority : a.priority = b.priority
  · simp [hpriority]
  · simp [hpriority, Ne.symm hpriority]

theorem orderIntents_eq_append {A B both : List RouteIntent} (hboth : both.Perm (A ++ B))
    (horder : A.Sublist both) (hrank : ∀ a ∈ A, ∀ b ∈ B, RanksAfter b a) :
    ∃ rest : List RouteIntent, rest.Perm B ∧
      orderIntents both = orderIntents A ++ orderIntents rest := by
  -- nothing ranks after itself, so membership in `A` tells the groups apart
  have hB : ∀ b ∈ B, b ∉ A := fun b hb hbA => lt_irrefl _ (rank_lt_rank.mpr (hrank b hbA b hb))
  have hfilterB : B.filter (· ∈ A) = [] := by
    rw [filter_eq_nil_iff]
    exact fun b hb => by simpa using hB b hb
  have hperm : (both.filter (· ∈ A)).Perm A := by
    refine (hboth.filter _).trans ?_
    rw [filter_append, hfilterB, append_nil, filter_eq_self.mpr (by simp)]
  have hA : both.filter (· ∈ A) = A := by
    have hsub : (A.filter (· ∈ A)).Sublist (both.filter (· ∈ A)) := horder.filter _
    rw [filter_eq_self.mpr (by simp)] at hsub
    exact (hsub.eq_of_length hperm.length_eq.symm).symm
  have hrest : (both.filter fun a => !decide (a ∈ A)).Perm B := by
    refine (hboth.filter _).trans ?_
    rw [filter_append, filter_eq_nil_iff.mpr (by simp), nil_append,
      filter_eq_self.mpr fun b hb => by simpa using hB b hb]
  refine ⟨_, hrest, ?_⟩
  have hsplit := insertionSort_eq_append (r := fun a b => intentLess b a = false)
    (fun a => decide (a ∈ A)) (l := both) ?_
  · rw [hA] at hsplit
    exact hsplit
  · intro a _ ha b hb hb'
    have haA : a ∈ A := of_decide_eq_true ha
    have hbB : b ∈ B := (mem_append.mp (hboth.mem_iff.mp hb)).resolve_left (of_decide_eq_false hb')
    have hlt : rank a < rank b := rank_lt_rank.mpr (hrank a haA b hbB)
    rw [intentLess_by.eq_false_iff, intentLess_by.eq_false_iff]
    exact ⟨hlt.le, not_le_of_gt hlt⟩

section Interference

variable {digest : Payload → String} {p : Planner} {clock now : Time}
  {snapshot : TopologySnapshot} {draft draft' : Draft} {rounds : List Round}

theorem Round.Succeeds.id_eq {r : Round} (hr : r.Succeeds p clock snapshot now) :
    r.intent.id = r.input.id := by
  obtain ⟨destination, -, -, heq⟩ := hr.intent_eq
  rw [heq]

theorem Round.Succeeds.intentID_eq {r : Round} (hr : r.Succeeds p clock snapshot now)
    {route : RouteOperation} (hroute : route ∈ r.routes) : route.intentID = r.input.id := by
  obtain ⟨i, path, -, hop, -, hok⟩ := (intentRoutes_spec hr.routes_ok).1 route hroute
  obtain ⟨-, -, -, -, rfl⟩ := hopRoute_eq_ok hok
  exact hr.id_eq

theorem Run.succeeds (h : Run p clock snapshot now draft rounds draft') :
    ∀ r ∈ rounds, r.Succeeds p clock snapshot now := by
  have hall := (h.invariant (P := fun _ => True) (fun _ _ _ => trivial) trivial).1
  exact fun r hr => (hall r hr).2

theorem Run.keeps (h : Run p clock snapshot now draft rounds draft') {id : String}
    (hne : ∀ r ∈ rounds, r.input.id ≠ id) :
    draft'.plan.paths.lookup id = draft.plan.paths.lookup id ∧
      draft'.plan.routesOf id = draft.plan.routesOf id := by
  constructor
  · refine h.paths_lookup_of_ne fun r hr => ?_
    rw [(h.succeeds r hr).id_eq]
    exact hne r hr
  · have hnew : (rounds.flatMap Round.routes).filter (fun route => route.intentID = id) = [] := by
      rw [filter_eq_nil_iff]
      intro route hroute
      obtain ⟨r, hr, hroute⟩ := mem_flatMap.mp hroute
      rw [(h.succeeds r hr).intentID_eq hroute]
      simpa using hne r hr
    unfold RoutePlan.routesOf
    rw [h.plan.2.1, filter_append, hnew, append_nil]

theorem Draft.finish_routesOf (snapshot : TopologySnapshot) (draft : Draft) (id : String) :
    ((draft.finish snapshot).routesOf id).Perm (draft.plan.routesOf id) :=
  (sortRoutes_perm draft.plan.routes).filter _

theorem lower_mono {t t' : Time} (h : t ≤ t') (end_ : Time) : lower t end_ ≤ lower t' end_ := by
  unfold lower
  by_cases hzero : end_.isZero = true
  · simpa [hzero] using h
  · simp only [hzero, Bool.not_false, Bool.true_and, decide_eq_true_eq]
    split_ifs with ht ht'
    · exact le_rfl
    · exact ht.le.trans h
    · exact not_lt.mp ht
    · exact h

/-- **Intents of lower priority do not interfere.** When a build of two groups of intents succeeds
and the second group ranks after the first, with ids of its own, then a build of the first group
alone succeeds, and every intent of it has the same paths and the same routes in both plans. -/
theorem lower_priority_does_not_interfere {A B both : List RouteIntent} {plan : RoutePlan}
    (hboth : both.Perm (A ++ B)) (horder : A.Sublist both)
    (hrank : ∀ a ∈ A, ∀ b ∈ B, RanksAfter b a) (hids : ∀ a ∈ A, ∀ b ∈ B, b.id ≠ a.id)
    (h : build digest p clock snapshot both now = .ok plan) :
    ∃ alone, build digest p clock snapshot A now = .ok alone ∧
      ∀ a ∈ A, alone.paths.lookup a.id = plan.paths.lookup a.id ∧
        (alone.routesOf a.id).Perm (plan.routesOf a.id) := by
  obtain ⟨hvalid, htime, draft, hloop, halive, rfl⟩ := build_eq_ok_iff.mp h
  obtain ⟨rest, hrest, hsplit⟩ := orderIntents_eq_append hboth horder hrank
  rw [hsplit] at hloop
  -- the loop over the first group is the loop of the build of this group alone
  obtain ⟨middle, hfirst, hloop⟩ := foldlM_ok_append.mp hloop
  obtain ⟨rounds, hrun, hinputs⟩ := foldlM_planIntent hloop
  have hlater : (draft.finish snapshot).expiresAt ≤ (middle.finish snapshot).expiresAt :=
    lower_mono hrun.expiresAt.1 snapshot.validUntil
  refine ⟨_, build_eq_ok_iff.mpr ⟨hvalid, htime, middle, hfirst, halive.trans_le hlater, rfl⟩, ?_⟩
  intro a ha
  have hne : ∀ r ∈ rounds, r.input.id ≠ a.id := by
    intro r hr
    have hmem : r.input ∈ orderIntents rest := hinputs ▸ mem_map_of_mem hr
    exact hids a ha r.input (hrest.mem_iff.mp ((mem_insertionSort _).mp hmem))
  obtain ⟨hpaths, hroutes⟩ := hrun.keeps hne
  have hmiddle := Draft.finish_routesOf snapshot middle a.id
  have hdraft := Draft.finish_routesOf snapshot draft a.id
  rw [hroutes] at hdraft
  exact ⟨hpaths.symm, hmiddle.trans hdraft.symm⟩

end Interference

/-! ### Two intents on a diamond -/

def priorityBuild (intents : List RouteIntent) : Except Failure RoutePlan :=
  build (fun _ => "0") (new {}) 0 diamond intents 1

def urgent : RouteIntent := { diamondIntent with priority := 1 }

def idle (id : String) : RouteIntent :=
  { diamondIntent with id := id, destination := "a", redundancy := 0 }

theorem urgent_keeps_paths_beside_idle : ∃ plan alone, priorityBuild [idle "j", urgent] = .ok plan ∧
    priorityBuild [urgent] = .ok alone ∧ alone.paths.lookup "i" = plan.paths.lookup "i" ∧
    (alone.routesOf "i").Perm (plan.routesOf "i") := by
  obtain ⟨plan, hplan⟩ : ∃ plan, priorityBuild [idle "j", urgent] = .ok plan :=
    exists_ok_of_isSome (by decide +kernel)
  obtain ⟨alone, halone, hsame⟩ := lower_priority_does_not_interfere (A := [urgent])
    (B := [idle "j"]) (List.Perm.swap _ _ _) (by simp)
    (by simp [RanksAfter, urgent, idle, diamondIntent]) (by simp [urgent, idle, diamondIntent]) hplan
  obtain ⟨hpaths, hroutes⟩ := hsame urgent mem_cons_self
  exact ⟨plan, alone, hplan, halone, hpaths, hroutes⟩

/-- With one id for both, the intent of lower priority takes the place of the other. -/
theorem same_id_takes_paths : RanksAfter (idle "i") urgent ∧
    (priorityBuild [urgent, idle "i"]).toOption.bind (fun plan =>
      (plan.paths.lookup "i").map fun paths => paths.map Path.nodes) = some [["s", "a"]] ∧
    (priorityBuild [urgent]).toOption.bind (fun plan =>
      (plan.paths.lookup "i").map fun paths => paths.map Path.nodes) =
        some [["s", "a", "d"], ["s", "b", "d"]] := by
  refine ⟨.inl (by decide), ?_, ?_⟩
  · decide +kernel
  · decide +kernel

end Planner
end StarFabric

import StarFabric.Adapter.ReadBack
import StarFabric.Reconcile.Apply

/-!
# The comparison of routes

`verify` sorts the routes of a device and those of its plan and compares them one by one. For a valid
plan this compares multisets, however `sort.Slice` orders routes with equal keys.
-/

namespace StarFabric.Reconcile

open Go List

def routesEqual (a b : List RouteOperation) : Bool :=
  if a.length ≠ b.length then false else (a.zip b).all fun pair => pair.1 = pair.2

theorem routesEqual_iff {a b : List RouteOperation} : routesEqual a b = true ↔ a = b := by
  unfold routesEqual
  by_cases hlength : a.length = b.length
  · rw [if_neg (not_not.mpr hlength), all_eq_true, ← forall₂_eq_eq_eq, forall₂_iff_zip]
    simp [hlength]
  · rw [if_pos hlength]
    exact iff_of_false nofun fun heq => hlength (congrArg length heq)

/-- **Verification compares multisets.** Whatever a device reports, the comparison with its share of a
valid plan succeeds exactly when the two lists are permutations of each other. -/
theorem verify_compares_multisets {plan : RoutePlan} {snapshot : TopologySnapshot} {now : Time}
    (hvalid : Validation.plan plan snapshot now = .ok ()) {additional : List String}
    {plans : Map RoutePlan} (hsplit : splitPlan plan additional = .ok plans) (name : String)
    (slice slice' : SortSlice routeLess) (actual : List RouteOperation) :
    routesEqual (slice.sort actual) (slice'.sort (planOf plans name).routes) = true ↔
      actual.Perm (planOf plans name).routes := by
  have hshare : (planOf plans name).routes = plan.share name := by
    unfold planOf
    rw [splitPlan_ok hsplit]
    split_ifs with hmem
    · rfl
    · exact (RoutePlan.share_eq_nil_iff.mpr fun h => hmem (.inr h)).symm
  have hkeys := Frr.nodup_share_of_valid hvalid name
  have hapart : SortSlice.Distinguishes routeLess (plan.share name) :=
    routeLess_by.distinguishes fun _ ha _ hb heq => inj_on_of_nodup_map hkeys ha hb heq
  rw [routesEqual_iff, hshare]
  constructor
  · intro heq
    exact (slice.perm actual).symm.trans (heq ▸ slice'.perm (plan.share name))
  · intro hperm
    exact (slice'.eq_of_sorted hapart ((slice.perm actual).trans hperm) (slice.sorted actual)).symm

theorem verify_compares_multisets_toy : ∃ plans,
    splitPlan (Frr.toyPlan "10.1.0.0/16") [] = .ok plans ∧
      routesEqual ((routeLess_by.rearranged id fun _ => .refl _).sort
        (Frr.toyPlan "10.1.0.0/16").routes)
        ((routeLess_by.rearranged reverse reverse_perm).sort (planOf plans "r1").routes) = true := by
  have hvalid : Validation.plan (Frr.toyPlan "10.1.0.0/16") Frr.toyTopology 10 = .ok () := by
    decide +kernel
  refine ⟨_, rfl, (verify_compares_multisets hvalid rfl "r1" _ _ _).mpr ?_⟩
  exact .refl _

end StarFabric.Reconcile

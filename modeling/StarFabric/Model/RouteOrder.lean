import StarFabric.Model.Plan
import StarFabric.Go.Sort

/-!
# The order of routes

`SortRoutes` compares routes by device, prefix, metric and next-hop node (`sortKey`). Routes that
differ there have one order.
-/

namespace StarFabric

open Go

def sortKey (route : RouteOperation) : String ×ₗ String ×ₗ ℤ ×ₗ String :=
  toLex (route.device, toLex (route.routePrefix, toLex (route.metric, route.nextHopNode)))

theorem routeLess_by : LessBy routeLess sortKey := by
  intro a b
  unfold routeLess sortKey
  rw [Prod.Lex.toLex_lt_toLex, Prod.Lex.toLex_lt_toLex, Prod.Lex.toLex_lt_toLex]
  by_cases hdevice : a.device = b.device
  · by_cases hprefix : a.routePrefix = b.routePrefix
    · by_cases hmetric : a.metric = b.metric
      · simp [hdevice, hprefix, hmetric]
      · simp [hdevice, hprefix, hmetric]
    · simp [hdevice, hprefix]
  · simp [hdevice]

theorem sortRoutes_eq_of_perm {routes routes' : List RouteOperation}
    (hkeys : (routes.map sortKey).Nodup) (hperm : routes'.Perm routes) :
    sortRoutes routes' = sortRoutes routes := by
  have hapart : SortSlice.Distinguishes routeLess routes :=
    routeLess_by.distinguishes fun _ ha _ hb heq => List.inj_on_of_nodup_map hkeys ha hb heq
  exact (routeLess_by.rearranged id List.Perm.refl).eq_of_perm hapart hperm

end StarFabric

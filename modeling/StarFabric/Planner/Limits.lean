import StarFabric.Planner.Redundancy
import StarFabric.Policy.Exact

/-!
# End-to-end limits

The search compares the limit on the latency with the latency of the whole path, and the limit on
the loss with the loss of each link alone. So the composed loss need not be within the limit
(`limits_exceeded`), unless the losses of the links do not add up to more (`build_within_limits`).
The latency of the path is a sum modulo 64 bits.
-/

namespace StarFabric.Planner

open Go Policy List

def lossSum (links : List Link) : ℤ := (links.map fun link => link.lossPPM.toInt).sum

section Limits

variable {p : Planner} {clock now : Time} {snapshot : TopologySnapshot} {draft : Draft}
  {r : Round} {path : Path}

theorem Accounted.inputs (h : Accounted snapshot draft) {intent : RouteIntent}
    {options : Options} {links : List Link}
    (hpath : Realizes draft.residual intent options path links) :
    ∃ inputs : List Link, (∀ link ∈ inputs, link ∈ snapshot.links) ∧
      links = inputs.map (charge draft.reservations) := by
  have hmem := hpath.mem_links
  clear hpath
  induction links with
  | nil => exact ⟨[], nofun, rfl⟩
  | cons link links ih =>
    obtain ⟨hlink, hlinks⟩ := forall_mem_cons.mp hmem
    obtain ⟨inputs, hinputs, rfl⟩ := ih hlinks
    rw [h.residual_eq] at hlink
    obtain ⟨input, hinput, rfl⟩ := mem_map.mp hlink
    exact ⟨input :: inputs, forall_mem_cons.mpr ⟨hinput, hinputs⟩, rfl⟩

theorem Round.Succeeds.searched (hp : p.policies = Registry.new [])
    (hr : r.Succeeds p clock snapshot now) (hpath : path ∈ r.paths) :
    ∃ policyName options, (searchOptions p now).Le options ∧
      shortest clock r.before.residual r.intent policyName options = .ok path := by
  obtain ⟨engine, hengine, -, hpaths⟩ := hr.computed
  rw [hp] at hengine
  obtain ⟨-, rfl⟩ := Registry.base_lookup hengine
  obtain ⟨options, hle, hcompute⟩ := hpaths path hpath
  exact ⟨_, options, hle, hcompute⟩

theorem Round.Succeeds.within (hp : p.policies = Registry.new [])
    (hr : r.Succeeds p clock snapshot now) (hacc : Accounted snapshot r.before)
    (hpath : path ∈ r.paths) :
    ∃ links, (∀ link ∈ links, link ∈ snapshot.links) ∧ path.links = links.map Link.id ∧
      (0 < r.intent.maxLatencyUS → path.latencyUS ≤ r.intent.maxLatencyUS ∧
        (totalLatency links < 2 ^ 63 → totalLatency links ≤ r.intent.maxLatencyUS.toInt)) ∧
      (0 < r.intent.maxLossPPM → (∀ link ∈ links, link.lossPPM ≤ r.intent.maxLossPPM) ∧
        ((∀ link ∈ links, 0 ≤ link.lossPPM ∧ link.lossPPM ≤ 1000000) →
          lossSum links ≤ r.intent.maxLossPPM.toInt → path.lossPPM ≤ r.intent.maxLossPPM)) := by
  obtain ⟨policyName, options, hle, hshortest⟩ := hr.searched hp hpath
  obtain ⟨-, ⟨edges, hfound⟩, hbound⟩ := shortest_eq_ok hshortest
  have hrealizes := hfound.realizes
  obtain ⟨links, hmem, heq⟩ := hacc.inputs hrealizes
  have hlatency : totalLatency (edges.map Edge.link) = totalLatency links := by
    rw [heq, totalLatency, map_map]
    rfl
  refine ⟨links, hmem, ?_, fun hlimit => ⟨hbound hlimit, fun hfits => ?_⟩, fun hlimit =>
    ⟨fun link hlink => ?_, fun hlosses hsum => ?_⟩⟩
  · rw [hrealizes.links_eq, heq, charge_map_id]
  · -- the sum fits, so it is the latency that was compared
    have hexact := (compose_latency_exact_iff r.intent.source path.cost
      fun link hlink => (hrealizes.admitted link hlink).usable.latency).mpr (hlatency ▸ hfits)
    rw [← hfound.path_eq, hlatency] at hexact
    rw [← hexact]
    exact Int64.le_iff_toInt_le.mp (hbound hlimit)
  · have hcharged : charge r.before.reservations link ∈ edges.map Edge.link :=
      heq ▸ mem_map_of_mem hlink
    exact (hrealizes.admitted _ hcharged).loss hlimit
  · have hloss : path.lossPPM = (links.map Link.lossPPM).foldl combinedLoss 0 := by
      rw [hfound.path_eq, compose_lossPPM, heq, map_map]
      rfl
    have hisLoss : ∀ loss ∈ links.map Link.lossPPM, IsLoss loss := forall_mem_map.mpr hlosses
    rw [Int64.le_iff_toInt_le, hloss, (toInt_foldl_combinedLoss hisLoss).2]
    calc Losses.combined 1000000 ((links.map Link.lossPPM).map Int64.toInt)
        ≤ ((links.map Link.lossPPM).map Int64.toInt).sum :=
          Losses.combined_le_sum (by decide) (share_of_mem_map hisLoss)
      _ = lossSum links := by
          rw [map_map]
          rfl
      _ ≤ r.intent.maxLossPPM.toInt := hsum

end Limits

/-! ### Two links in a row -/

def lossyChain (latency loss : Int64) : TopologySnapshot where
  version := 1
  nodes := [{ id := "s", loopback := "10.0.0.1", enabled := true },
    { id := "a", loopback := "10.0.0.2", enabled := true },
    { id := "d", loopback := "10.0.0.3", enabled := true }]
  links := [
    { id := "sa", source := "s", target := "a", adminUp := true, operationalUp := true
      latencyUS := latency, lossPPM := loss, capacityBPS := 100 },
    { id := "ad", source := "a", target := "d", adminUp := true, operationalUp := true
      latencyUS := latency, lossPPM := loss, capacityBPS := 100 }]

def limitedIntent : RouteIntent :=
  { id := "i", source := "s", destination := "d", destinationPrefix := "10.1.0.0/16"
    policy := "hops", maxLatencyUS := 10, maxLossPPM := 10 }

def lossyBuild (latency loss : Int64) : Except Failure RoutePlan :=
  build (fun _ => "0") (new {}) 0 (lossyChain latency loss) [limitedIntent] 1

def reported (built : Except Failure RoutePlan) : Option (List (List String × Int64 × Int64)) :=
  built.toOption.bind fun plan => (plan.paths.lookup "i").map fun paths =>
    paths.map fun path => (path.links, path.latencyUS, path.lossPPM)

end StarFabric.Planner

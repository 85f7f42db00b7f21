import StarFabric.Planner.Admission

/-!
# Disjointness of redundant paths

The paths of one intent have nothing in common that could fail for several of them. A path
is computed under exclusions that cover every path before it, because the exclusions are
accumulated from call to call, and a sound policy stays off what is excluded.
-/

namespace StarFabric.Planner

open Go Policy List

section Redundancy

variable {p : Planner} {clock now : Time} {snapshot : TopologySnapshot} {r : Round}

theorem AvoidedBy.disjoint {engine : PathPolicy} {intent : RouteIntent} {path other : Path}
    (hengine : engine.Sound) (hclock : now = 0 → clock = 0) (hvalid : snapshot.Valid)
    (hintent : intent.Valid)
    (h : AvoidedBy p engine clock snapshot intent (searchOptions p now) other path) :
    Disjoint p.nodeDisjoint other path := by
  obtain ⟨options, hle, hcovers, hcompute⟩ := h
  obtain ⟨links, hlinks⟩ := hengine clock snapshot intent options path hvalid hintent hcompute
  rw [resolve_searchOptions hclock hle] at hlinks
  exact hlinks.disjoint hcovers

theorem Round.Succeeds.disjoint (hp : p.policies.Sound) (hclock : now = 0 → clock = 0)
    (hr : r.Succeeds p clock snapshot now) (hvalid : r.before.residual.Valid) :
    (r.paths.length : ℤ) = r.intent.redundancy + 1 ∧
      r.paths.Pairwise (Disjoint p.nodeDisjoint) := by
  obtain ⟨hlen, hbackups⟩ := computeBackups_spec hr.intent_valid.redundancy.1 hr.backs
  refine ⟨by rw [← hlen]; rfl, ?_⟩
  rcases hbackups with hnone | ⟨engine, hengine, hpairs⟩
  · rw [Round.paths, hnone]
    exact pairwise_singleton ..
  · exact hpairs.imp fun h => h.disjoint (hp.policy hengine) hclock hvalid hr.intent_valid

/-- **Redundancy.** With the built-in policies, the paths that a plan holds for an intent are
one more than its redundancy, and no two of them share a link, an adjacency in either
direction, a risk group or, when disjoint nodes are configured, an interior node. -/
theorem build_paths_disjoint {digest : Payload → String} {intents : List RouteIntent}
    {plan : RoutePlan} (hp : p.policies = Registry.new [])
    (h : build digest p clock snapshot intents now = .ok plan) {id : String} {paths : List Path}
    (hpaths : plan.paths.lookup id = some paths) :
    ∃ intent ∈ plan.intents, intent.id = id ∧ (paths.length : ℤ) = intent.redundancy + 1 ∧
      paths.Pairwise (Disjoint p.nodeDisjoint) := by
  have hsound : p.policies.Sound := hp ▸ Registry.new_sound nofun
  obtain ⟨rounds, draft, hbuilt⟩ := build_run h
  obtain ⟨r, hmem, rfl, rfl⟩ := hbuilt.records.mem_paths id paths hpaths
  obtain ⟨hacc, hr⟩ := hbuilt.accounted_rounds hsound r hmem
  refine ⟨r.intent, ?_, rfl, hr.disjoint hsound hbuilt.clock_eq (hacc.residual_valid hbuilt.valid)⟩
  rw [hbuilt.records.intents]
  exact mem_map_of_mem hmem

end Redundancy

/-! ### Two ways across a diamond -/

def diamondLink (source target : String) : Link :=
  { id := source ++ target, source := source, target := target, adminUp := true
    operationalUp := true, latencyUS := 5, capacityBPS := 100 }

def diamond : TopologySnapshot where
  version := 1
  nodes := [{ id := "s", loopback := "10.0.0.1", enabled := true },
    { id := "a", loopback := "10.0.0.2", enabled := true },
    { id := "b", loopback := "10.0.0.3", enabled := true },
    { id := "d", loopback := "10.0.0.4", enabled := true }]
  links := [diamondLink "s" "a", diamondLink "a" "d", diamondLink "s" "b", diamondLink "b" "d"]

def diamondIntent : RouteIntent :=
  { id := "i", source := "s", destination := "d", destinationPrefix := "10.1.0.0/16"
    policy := "ecmp", redundancy := 1 }

def diamondBuild : Except Failure RoutePlan :=
  build (fun _ => "0") (new { nodeDisjoint := true }) 0 diamond [diamondIntent] 1

theorem build_paths_disjoint_diamond : ∃ plan paths, diamondBuild = .ok plan ∧
    plan.paths.lookup "i" = some paths ∧ paths.map Path.nodes = [["s", "a", "d"], ["s", "b", "d"]] ∧
    paths.Pairwise (Disjoint true) := by
  obtain ⟨plan, hplan⟩ : ∃ plan, diamondBuild = .ok plan :=
    ExceptFold.exists_ok_of_isSome (by decide +kernel)
  have hnodes : diamondBuild.toOption.bind (fun plan =>
      (plan.paths.lookup "i").map fun paths => paths.map Path.nodes) =
        some [["s", "a", "d"], ["s", "b", "d"]] := by decide +kernel
  rw [hplan] at hnodes
  obtain ⟨paths, hpaths, hmap⟩ := Option.map_eq_some_iff.mp hnodes
  obtain ⟨_, -, -, -, hdisjoint⟩ := build_paths_disjoint rfl hplan hpaths
  exact ⟨plan, paths, hplan, hpaths, hmap, hdisjoint⟩

end StarFabric.Planner

import StarFabric.Policy.Registry
import StarFabric.Go.Sort
import StarFabric.Lib.Fold

/-!
# The order of nodes and links

A search does not depend on the order in which a snapshot lists its nodes and links. The links are
put into lists by their source, and each list is sorted by cost and id, which leaves one order when
ids are distinct. The exclusions of two searches may come in different orders (`Options.Alike`).
-/

namespace StarFabric

open Go List

/-- Two snapshots with the same nodes and the same links, in any order, with distinct ids. -/
structure TopologySnapshot.Reordered (a b : TopologySnapshot) : Prop where
  nodes : a.nodes.Perm b.nodes
  links : a.links.Perm b.links
  node_nodup : (b.nodes.map Node.id).Nodup
  link_nodup : (b.links.map Link.id).Nodup

theorem TopologySnapshot.Valid.reorder {snapshot : TopologySnapshot} (h : snapshot.Valid)
    {nodes : List Node} {links : List Link} (hnodes : nodes.Perm snapshot.nodes)
    (hlinks : links.Perm snapshot.links) :
    { snapshot with nodes := nodes, links := links : TopologySnapshot }.Valid where
  version_ne := h.version_ne
  node_id n hn := h.node_id n (hnodes.mem_iff.mp hn)
  node_nodup := (hnodes.map _).nodup_iff.mpr h.node_nodup
  link_text l hl := h.link_text l (hlinks.mem_iff.mp hl)
  link_ends l hl := h.link_ends l (hlinks.mem_iff.mp hl)
  link_source l hl := (hnodes.map _).mem_iff.mpr (h.link_source l (hlinks.mem_iff.mp hl))
  link_target l hl := (hnodes.map _).mem_iff.mpr (h.link_target l (hlinks.mem_iff.mp hl))
  link_nodup := (hlinks.map _).nodup_iff.mpr h.link_nodup
  groups l hl := h.groups l (hlinks.mem_iff.mp hl)

namespace Policy

open Dijkstra

structure Options.Alike (a b : Options) : Prop where
  at_eq : a.at_ = b.at_
  age_eq : a.maxTelemetryAge = b.maxTelemetryAge
  links : ∀ id, id ∈ a.excludedLinks ↔ id ∈ b.excludedLinks
  nodes : ∀ id, id ∈ a.excludedNodes ↔ id ∈ b.excludedNodes
  groups : ∀ group, group ∈ a.excludedRiskGroups ↔ group ∈ b.excludedRiskGroups

theorem Options.Alike.refl (a : Options) : a.Alike a :=
  ⟨rfl, rfl, fun _ => Iff.rfl, fun _ => Iff.rfl, fun _ => Iff.rfl⟩

theorem Options.Alike.resolve {a b : Options} (h : a.Alike b) (clock : Time) :
    (a.resolve clock).Alike (b.resolve clock) := by
  unfold Options.resolve
  rw [h.at_eq]
  split_ifs
  · exact ⟨rfl, h.age_eq, h.links, h.nodes, h.groups⟩
  · exact h

section Search

variable {a b : TopologySnapshot} {intent : RouteIntent} {policyName : String}
  {options options' : Options}

theorem nodeMap_lookup_of_reordered (h : a.Reordered b) (id : String) :
    a.nodeMap.lookup id = b.nodeMap.lookup id :=
  lookup_mapBy_of_perm h.node_nodup h.nodes id

theorem enabled_of_reordered (h : a.Reordered b) (ho : options.Alike options') (id : String) :
    enabled a options id = enabled b options' id := by
  have hcontains : options.excludedNodes.contains id = options'.excludedNodes.contains id := by
    rw [Bool.eq_iff_iff, contains_iff_mem, contains_iff_mem]
    exact ho.nodes id
  unfold enabled
  rw [nodeMap_lookup_of_reordered h, hcontains]

theorem admits_of_reordered (h : a.Reordered b) (ho : options.Alike options') :
    admits a intent options = admits b intent options' := by
  funext link
  have hlinks : options.excludedLinks.contains link.id = options'.excludedLinks.contains link.id := by
    rw [Bool.eq_iff_iff, contains_iff_mem, contains_iff_mem]
    exact ho.links link.id
  have hgroups : intersectsRiskGroups link.riskGroups options.excludedRiskGroups =
      intersectsRiskGroups link.riskGroups options'.excludedRiskGroups := by
    refine congrArg (link.riskGroups.any ·) (funext fun group => ?_)
    exact decide_eq_decide.mpr (ho.groups group)
  unfold admits
  rw [hlinks, hgroups, enabled_of_reordered h ho, enabled_of_reordered h ho, ho.at_eq, ho.age_eq]

theorem edgeLess_by : LessBy edgeLess fun e => (toLex (e.cost, e.link.id) : Int64 ×ₗ String) := by
  intro x y
  unfold edgeLess
  rw [Prod.Lex.toLex_lt_toLex]
  by_cases hcost : x.cost = y.cost
  · simp [hcost]
  · simp [hcost]

theorem edges_perm_of_reordered (h : a.Reordered b) (ho : options.Alike options') :
    (graph a intent policyName options).edges.Perm (graph b intent policyName options').edges := by
  unfold graph
  rw [admits_of_reordered h ho]
  exact (h.links.filter _).map _

theorem edge_eq_of_id (h : a.Reordered b) {x y : Edge}
    (hx : x ∈ (graph b intent policyName options).edges)
    (hy : y ∈ (graph b intent policyName options).edges) (hid : x.link.id = y.link.id) : x = y := by
  obtain ⟨hxmem, -, hxcost⟩ := mem_edges.mp hx
  obtain ⟨hymem, -, hycost⟩ := mem_edges.mp hy
  have hlink : x.link = y.link := inj_on_of_nodup_map h.link_nodup hxmem hymem hid
  cases x
  cases y
  cases hlink
  exact congrArg _ (hxcost.trans hycost.symm)

theorem out_of_reordered (h : a.Reordered b) (ho : options.Alike options') :
    (graph a intent policyName options).out = (graph b intent policyName options').out := by
  funext node
  have hperm : (graph a intent policyName options).edges.Perm
      (graph b intent policyName options').edges := edges_perm_of_reordered h ho
  refine (edgeLess_by.rearranged id List.Perm.refl).eq_of_perm (edgeLess_by.distinguishes ?_)
    (hperm.filter fun e => e.link.source = node)
  intro x hx y hy hkey
  have hid : x.link.id = y.link.id := congrArg (fun k => (ofLex k).2) hkey
  exact edge_eq_of_id h (mem_of_mem_filter hx) (mem_of_mem_filter hy) hid

theorem graph_of_reordered (h : a.Reordered b) (ho : options.Alike options') :
    graph a intent policyName options = { graph b intent policyName options' with
      edges := (graph a intent policyName options).edges } := by
  have hout : (graph a intent policyName options).out = (graph b intent policyName options').out :=
    out_of_reordered h ho
  dsimp only
  rw [← hout]
  rfl

theorem shortest_of_reordered (clock : Time) (h : a.Reordered b) (ho : options.Alike options') :
    shortest clock a intent policyName options = shortest clock b intent policyName options' := by
  have hr := ho.resolve clock
  have hperm : (graph a intent policyName (options.resolve clock)).edges.Perm
      (graph b intent policyName (options'.resolve clock)).edges := edges_perm_of_reordered h hr
  have hsearch : search (graph a intent policyName (options.resolve clock)) intent.source
      intent.destination =
      search (graph b intent policyName (options'.resolve clock)) intent.source
        intent.destination := by
    rw [graph_of_reordered h hr]
    exact search_with_edges _ _ hperm.length_eq _ _
  have hback : ∀ prev fuel, backtrack (graph a intent policyName (options.resolve clock)) prev
      intent.source fuel intent.destination =
      backtrack (graph b intent policyName (options'.resolve clock)) prev intent.source fuel
        intent.destination := by
    intro prev fuel
    rw [graph_of_reordered h hr]
    exact backtrack_with_edges _ _ _ _ _ _
  unfold shortest
  cases intent.validate with
  | error e => rfl
  | ok =>
    dsimp only
    rw [enabled_of_reordered h hr, enabled_of_reordered h hr, hsearch, hback, hperm.length_eq]

end Search

/-! ### Policies -/

/-- A policy does not depend on the order of nodes, links and exclusions. -/
def PathPolicy.OrderFree (p : PathPolicy) : Prop :=
  ∀ clock a b intent options options', a.Reordered b → options.Alike options' →
    p.compute clock a intent options = p.compute clock b intent options'

theorem costPolicy_orderFree (name : String) : (costPolicy name).OrderFree :=
  fun clock _ _ _ _ _ h ho => shortest_of_reordered clock h ho

def Registry.OrderFree (r : Registry) : Prop :=
  ∀ name p, r.policies.lookup name = some p → p.OrderFree

theorem Registry.base_orderFree : Registry.base.OrderFree := by
  intro name p h
  obtain ⟨-, rfl⟩ := Registry.base_lookup h
  exact costPolicy_orderFree name

section Disjoint

variable {a b : TopologySnapshot} {options options' : Options}

theorem Registry.OrderFree.compute {r : Registry} (hr : r.OrderFree) (clock : Time) (name : String)
    (intent : RouteIntent) (h : a.Reordered b) (ho : options.Alike options') :
    r.compute clock name a intent options = r.compute clock name b intent options' := by
  unfold Registry.compute
  cases hp : r.policy name with
  | none => rfl
  | some p => exact hr _ p hp clock a b intent options options' h ho

theorem exclude_of_reordered (h : a.Reordered b) (ho : options.Alike options') (primary : Path)
    (nodeDisjoint : Bool) :
    ExceptFold.Related Options.Alike (exclude a primary nodeDisjoint options)
      (exclude b primary nodeDisjoint options') := by
  have hadded : ∀ id, id ∈ (a.links.filter fun link =>
      edgeKey link.source link.target ∈ primaryEdges primary).map Link.id ↔
      id ∈ (b.links.filter fun link =>
        edgeKey link.source link.target ∈ primaryEdges primary).map Link.id :=
    fun id => ((h.links.filter _).map _).mem_iff
  have hlinks : ∀ id, id ∈ options.excludedLinks ++ primary.links ++ (a.links.filter fun link =>
        edgeKey link.source link.target ∈ primaryEdges primary).map Link.id ↔
      id ∈ options'.excludedLinks ++ primary.links ++ (b.links.filter fun link =>
          edgeKey link.source link.target ∈ primaryEdges primary).map Link.id := by
    intro id
    rw [mem_append, mem_append, hadded, ho.links, ← mem_append, ← mem_append]
  have hgroups : ∀ group, group ∈ options.excludedRiskGroups ++ primary.riskGroups ↔
      group ∈ options'.excludedRiskGroups ++ primary.riskGroups := by
    intro group
    rw [mem_append, ho.groups, ← mem_append]
  unfold exclude
  split_ifs
  · exact .error _
  · refine .ok ⟨ho.at_eq, ho.age_eq, hlinks, fun id => ?_, hgroups⟩
    rw [mem_append, ho.nodes, ← mem_append]
  · exact .ok ⟨ho.at_eq, ho.age_eq, hlinks, ho.nodes, hgroups⟩

theorem disjointWithPolicy_of_reordered {engine : PathPolicy} (he : engine.OrderFree)
    (clock : Time) (intent : RouteIntent) (h : a.Reordered b) (ho : options.Alike options')
    (primary : Path) (nodeDisjoint : Bool) :
    ExceptFold.Related (fun x y => x.1 = y.1 ∧ x.2.Alike y.2)
      (disjointWithPolicy engine clock a intent primary nodeDisjoint options)
      (disjointWithPolicy engine clock b intent primary nodeDisjoint options') := by
  have hexclude := exclude_of_reordered h ho primary nodeDisjoint
  unfold disjointWithPolicy
  generalize exclude a primary nodeDisjoint options = x at hexclude ⊢
  generalize exclude b primary nodeDisjoint options' = y at hexclude ⊢
  cases hexclude with
  | error e => exact .error e
  | @ok o o' ho' =>
    dsimp only
    rw [he clock a b intent o o' h ho']
    cases engine.compute clock b intent o' with
    | error e => exact .error _
    | ok path => exact .ok ⟨rfl, ho'⟩

end Disjoint
end Policy
end StarFabric

import StarFabric.Lib.Dijkstra
import StarFabric.Model.Plan

/-!
# Constrained shortest paths

`internal/policy/path.go`. `shortest` filters the links of a snapshot by the constraints of an
intent and by exclusions, runs the search of `Dijkstra` on what is left and composes the service
values along the path. An exclusion map is only ever set to true, so it is the list of its keys
here. A node without an entry in the map of predecessors has the zero link, whose empty id no link
id is less than.
-/

namespace StarFabric.Policy

open Go Dijkstra Int64 List

def errNoPath : String := "no path satisfies the intent"

structure Options where
  at_ : Time := 0
  maxTelemetryAge : Duration := 0
  excludedLinks : List String := []
  excludedNodes : List String := []
  excludedRiskGroups : List String := []
  deriving DecidableEq, Repr

structure Edge where
  link : Link
  cost : Int64
  deriving DecidableEq

def edgeCost (link : Link) (policyName : String) : Int64 :=
  if policyName = "hops" then 1
  -- capacity and reliability fall back on the latency to break ties
  else if policyName = "capacity" then
    1000000000000 / link.capacityBPS + max 1 (link.latencyUS / 1000)
  else if policyName = "reliability" then
    max 1 (1000000 - link.reliabilityPPM) + max 1 (link.latencyUS / 100)
  else max 1 link.latencyUS

def combinedLoss (current next : Int64) : Int64 :=
  current + next - current * next / 1000000

def intersectsRiskGroups (groups excluded : List String) : Bool :=
  groups.any fun group => group ∈ excluded

/-- The map `enabled`, false where a node is absent. -/
def enabled (snapshot : TopologySnapshot) (options : Options) (id : String) : Bool :=
  match snapshot.nodeMap.lookup id with
  | none => false
  | some node => node.enabled && !(options.excludedNodes.contains id)

def requiredCapacity (intent : RouteIntent) : Int64 := max intent.minCapacityBPS intent.demandBPS

def admits (snapshot : TopologySnapshot) (intent : RouteIntent) (options : Options)
    (link : Link) : Bool :=
  if options.excludedLinks.contains link.id || !enabled snapshot options link.source ||
      !enabled snapshot options link.target ||
      !link.usable options.at_ options.maxTelemetryAge then false
  else if intersectsRiskGroups link.riskGroups options.excludedRiskGroups then false
  -- a bound of zero is no bound, for the capacity, the loss and the reliability alike
  else if 0 < requiredCapacity intent && link.capacityBPS < requiredCapacity intent then false
  else if 0 < intent.maxLossPPM && intent.maxLossPPM < link.lossPPM then false
  else if 0 < intent.requiredReliability && link.reliabilityPPM < intent.requiredReliability then
    false
  else true

def edgeLess (a b : Edge) : Bool :=
  if a.cost ≠ b.cost then a.cost < b.cost else a.link.id < b.link.id

def graph (snapshot : TopologySnapshot) (intent : RouteIntent) (policyName : String)
    (options : Options) : Graph String Edge Int64 String :=
  let edges := (snapshot.links.filter (admits snapshot intent options)).map fun link =>
    { link := link, cost := edgeCost link policyName : Edge }
  { edges := edges
    source := fun e => e.link.source
    target := fun e => e.link.target
    out := fun node => (edges.filter fun e => e.link.source = node).insertionSort
      fun a b => edgeLess b a = false
    ident := fun e => e.link.id
    zero := 0
    -- the guard against overflow; a negative cost wraps in the difference
    extend := fun dist e =>
      if Int64.maxValue - e.cost < dist then none else some (dist + e.cost) }

def addLink (path : Path) (link : Link) : Path :=
  { path with
    links := path.links ++ [link.id]
    nodes := path.nodes ++ [link.target]
    latencyUS := path.latencyUS + link.latencyUS
    lossPPM := combinedLoss path.lossPPM link.lossPPM
    capacityBPS := if link.capacityBPS < path.capacityBPS then link.capacityBPS
      else path.capacityBPS }

def compose (source : String) (cost : Int64) (links : List Link) : Path :=
  { links.foldl addLink { nodes := [source], capacityBPS := Int64.maxValue, cost := cost } with
    riskGroups := sortStrings ((links.flatMap Link.riskGroups).foldl appendMissing []) }

def Options.resolve (options : Options) (clock : Time) : Options :=
  if options.at_.isZero then { options with at_ := clock } else options

/-- `Shortest`. The clock is read when the options give no instant. -/
def shortest (clock : Time) (snapshot : TopologySnapshot) (intent : RouteIntent)
    (policyName : String) (options : Options) : Except String Path :=
  match intent.validate with
  | .error e => .error e
  | .ok () =>
    let options := options.resolve clock
    if !enabled snapshot options intent.source || !enabled snapshot options intent.destination then
      .error (errNoPath ++ ": endpoint disabled or absent")
    else
      -- no filter is applied to the composed path but the one on its latency
      let g := graph snapshot intent policyName options
      let found := search g intent.source intent.destination
      if found.dist intent.destination = Int64.maxValue then .error errNoPath
      else match backtrack g found.prev intent.source g.edges.length intent.destination with
        | none => .error errNoPath
        | some reversed =>
          let path := compose intent.source (found.dist intent.destination)
            (reversed.reverse.map Edge.link)
          if 0 < intent.maxLatencyUS ∧ intent.maxLatencyUS < path.latencyUS then
            .error (errNoPath ++ ": latency " ++ toString path.latencyUS ++ " exceeds " ++
              toString intent.maxLatencyUS)
          else .ok path

/-! ### What the filters admit -/

structure Admitted (snapshot : TopologySnapshot) (intent : RouteIntent) (options : Options)
    (link : Link) : Prop where
  not_excluded : link.id ∉ options.excludedLinks
  source : enabled snapshot options link.source = true
  target : enabled snapshot options link.target = true
  usable : link.Usable options.at_ options.maxTelemetryAge
  groups : ∀ group ∈ link.riskGroups, group ∉ options.excludedRiskGroups
  capacity : requiredCapacity intent ≤ link.capacityBPS
  loss : 0 < intent.maxLossPPM → link.lossPPM ≤ intent.maxLossPPM
  reliability : 0 < intent.requiredReliability → intent.requiredReliability ≤ link.reliabilityPPM

section Admits

variable {snapshot : TopologySnapshot} {intent : RouteIntent} {options : Options} {link : Link}

theorem enabled_iff {id : String} : enabled snapshot options id = true ↔
    ∃ node, snapshot.nodeMap.lookup id = some node ∧ node.enabled = true ∧
      id ∉ options.excludedNodes := by
  unfold enabled
  cases snapshot.nodeMap.lookup id with
  | none => simp
  | some node => simp

theorem admits_iff : admits snapshot intent options link = true ↔
    Admitted snapshot intent options link := by
  unfold admits
  constructor
  · intro h
    split_ifs at h with h₁ h₂ h₃ h₄ h₅
    simp only [Bool.or_eq_true, Bool.not_eq_true', not_or, Bool.not_eq_false,
      contains_iff_mem, intersectsRiskGroups, any_eq_true, decide_eq_true_eq, not_exists,
      not_and, Bool.and_eq_true, not_lt, Link.usable_iff] at h₁ h₂ h₃ h₄ h₅
    obtain ⟨⟨⟨hlink, hsource⟩, htarget⟩, husable⟩ := h₁
    refine ⟨hlink, hsource, htarget, husable, h₂, ?_, h₄, h₅⟩
    -- without a bound the capacity is still positive, as the link is usable
    rcases le_or_gt (requiredCapacity intent) 0 with hzero | hpos
    · exact hzero.trans husable.capacity.le
    · exact h₃ hpos
  · rintro ⟨hlink, hsource, htarget, husable, hgroups, hcap, hloss, hrel⟩
    have husable' := Link.usable_iff.mpr husable
    rw [if_neg (by simp [hlink, hsource, htarget, husable']),
      if_neg (by simpa [intersectsRiskGroups] using hgroups),
      if_neg (by simp [hcap]), if_neg (by simpa using hloss), if_neg (by simpa using hrel)]

end Admits

/-! ### The graph -/

/-- A usable link never costs zero. A cost that overflows is negative, and the guard of the
search refuses it. -/
theorem edgeCost_ne_zero {link : Link} {at_ : Time} {maxTelemetryAge : Duration}
    (h : link.Usable at_ maxTelemetryAge) (policyName : String) :
    edgeCost link policyName ≠ 0 := by
  have hone : ∀ x : Int64, 0 < max 1 x := fun x => lt_of_lt_of_le (by decide) (le_max_left 1 x)
  unfold edgeCost
  split_ifs
  · decide
  · refine add_ne_zero ?_ (hone _)
    -- the quotient is not negative and the other summand is positive
    have hcap := lt_iff_toInt_lt.mp h.capacity
    rw [le_iff_toInt_le, toInt_div_of_ne_left _ _ (by decide)]
    exact Int.tdiv_nonneg (by decide) hcap.le
  · exact add_ne_zero (hone _).le (hone _)
  · exact (hone _).ne'

section Graph

variable {snapshot : TopologySnapshot} {intent : RouteIntent} {policyName : String}
  {options : Options}

theorem mem_edges {e : Edge} : e ∈ (graph snapshot intent policyName options).edges ↔
    e.link ∈ snapshot.links ∧ Admitted snapshot intent options e.link ∧
      e.cost = edgeCost e.link policyName := by
  simp only [graph, mem_map, mem_filter, admits_iff]
  constructor
  · rintro ⟨link, ⟨hlink, hadm⟩, rfl⟩
    exact ⟨hlink, hadm, rfl⟩
  · rintro ⟨hlink, hadm, hcost⟩
    exact ⟨e.link, ⟨hlink, hadm⟩, by rw [← hcost]⟩

theorem extend_eq_some {e : Edge} {d d' : Int64}
    (he : e ∈ (graph snapshot intent policyName options).edges) (hd : 0 ≤ d) :
    (graph snapshot intent policyName options).extend d e = some d' ↔
      0 < e.cost ∧ d'.toInt = d.toInt + e.cost.toInt := by
  obtain ⟨-, hadm, hcost⟩ := mem_edges.mp he
  have hne : e.cost ≠ 0 := hcost ▸ edgeCost_ne_zero hadm.usable policyName
  simp only [graph]
  by_cases hguard : Int64.maxValue - e.cost < d
  · rw [if_pos hguard]
    -- past the guard no `Int64` is the sum
    refine iff_of_false (by simp) fun ⟨hpos, hsum⟩ => ?_
    have hd' := toInt_lt d'
    have hsub := toInt_sub_of_le Int64.maxValue e.cost hpos.le le_top
    rw [lt_iff_toInt_lt, hsub, toInt_maxValue] at hguard
    omega
  · obtain ⟨hpos, hsum⟩ := toInt_add_of_guard hd hne hguard
    rw [if_neg hguard, Option.some.injEq, ← hsum, toInt_inj, eq_comm]
    exact ⟨fun h => ⟨hpos, h⟩, And.right⟩

theorem graph_lawful (snapshot : TopologySnapshot) (intent : RouteIntent) (policyName : String)
    (options : Options) : (graph snapshot intent policyName options).Lawful where
  mem_out u e := by
    have hperm := perm_insertionSort (fun a b => edgeLess b a = false)
      ((graph snapshot intent policyName options).edges.filter fun e => e.link.source = u)
    refine hperm.mem_iff.trans ?_
    rw [mem_filter, decide_eq_true_eq]
    rfl
  lt_extend e he d d' hd hext := by
    obtain ⟨hpos, hsum⟩ := (extend_eq_some he hd).mp hext
    rw [lt_iff_toInt_lt] at hpos ⊢
    have h0 : (0 : Int64).toInt = 0 := rfl
    omega
  extend_strictMono e he d₁ d₂ d₂' hd hlt hext := by
    obtain ⟨hpos, hsum⟩ := (extend_eq_some he (hd.trans hlt.le)).mp hext
    have hd₂' := toInt_lt d₂'
    have hlt' := lt_iff_toInt_lt.mp hlt
    -- the smaller sum is below the larger one, which did not overflow
    have hadd := toInt_add_of_lt hd hpos.le (by omega)
    refine ⟨d₁ + e.cost, (extend_eq_some he hd).mpr ⟨hpos, hadd⟩, ?_⟩
    rw [lt_iff_toInt_lt, hadd]
    omega

end Graph

/-! ### The path found -/

def Connects : String → List Link → String → Prop
  | u, [], v => u = v
  | u, link :: links, v => link.source = u ∧ Connects link.target links v

/-- The path runs along the links, which lead from the source of the intent to its
destination through no node twice and pass the filters of the search. -/
structure Realizes (snapshot : TopologySnapshot) (intent : RouteIntent) (options : Options)
    (path : Path) (links : List Link) : Prop where
  connects : Connects intent.source links intent.destination
  mem_links : ∀ link ∈ links, link ∈ snapshot.links
  admitted : ∀ link ∈ links, Admitted snapshot intent options link
  nodes_eq : path.nodes = intent.source :: links.map Link.target
  links_eq : path.links = links.map Link.id
  simple : path.nodes.Nodup
  mem_groups : ∀ group, group ∈ path.riskGroups ↔ ∃ link ∈ links, group ∈ link.riskGroups

theorem foldl_addLink (links : List Link) (path : Path) :
    (links.foldl addLink path).nodes = path.nodes ++ links.map Link.target ∧
      (links.foldl addLink path).links = path.links ++ links.map Link.id ∧
      (links.foldl addLink path).cost = path.cost := by
  induction links generalizing path with
  | nil => simp
  | cons link links ih =>
    obtain ⟨hnodes, hlinks, hcost⟩ := ih (addLink path link)
    rw [foldl_cons, hnodes, hlinks, hcost]
    simp [addLink]

section Compose

variable (source : String) (cost : Int64) (links : List Link)

@[simp] theorem compose_nodes :
    (compose source cost links).nodes = source :: links.map Link.target :=
  (foldl_addLink links _).1

@[simp] theorem compose_links : (compose source cost links).links = links.map Link.id := by
  have h := (foldl_addLink links
    { nodes := [source], capacityBPS := Int64.maxValue, cost := cost }).2.1
  rwa [nil_append] at h

@[simp] theorem compose_cost : (compose source cost links).cost = cost :=
  (foldl_addLink links _).2.2

theorem mem_compose_riskGroups {group : String} :
    group ∈ (compose source cost links).riskGroups ↔ ∃ link ∈ links, group ∈ link.riskGroups := by
  simp [compose, mem_foldl_appendMissing]

end Compose

/-- What a successful search returns: a shortest walk of the graph without repeated nodes. -/
structure Found (snapshot : TopologySnapshot) (intent : RouteIntent) (policyName : String)
    (options : Options) (path : Path) (edges : List Edge) : Prop where
  valid : intent.Valid
  walk : (graph snapshot intent policyName options).IsWalk intent.source edges intent.destination
  length : (graph snapshot intent policyName options).length 0 edges = some path.cost
  path_eq : path = compose intent.source path.cost (edges.map Edge.link)
  simple : path.nodes.Nodup
  least : ∀ es len,
    (graph snapshot intent policyName options).IsWalk intent.source es intent.destination →
    (graph snapshot intent policyName options).length 0 es = some len → path.cost ≤ len

section Search

variable {clock : Time} {snapshot : TopologySnapshot} {intent : RouteIntent} {policyName : String}
  {options : Options}

/-- **The search.** When the destination has a distance, the predecessors lead back to the source,
and the path along them is a shortest one. -/
theorem found_of_reached (hvalid : intent.Valid)
    (hreached : (search (graph snapshot intent policyName options) intent.source
      intent.destination).dist intent.destination ≠ Int64.maxValue) :
    ∃ edges, backtrack (graph snapshot intent policyName options)
        (search (graph snapshot intent policyName options) intent.source intent.destination).prev
        intent.source (graph snapshot intent policyName options).edges.length
        intent.destination = some edges.reverse ∧
      Found snapshot intent policyName options (compose intent.source
        ((search (graph snapshot intent policyName options) intent.source
          intent.destination).dist intent.destination) (edges.map Edge.link)) edges := by
  have hg := graph_lawful snapshot intent policyName options
  obtain ⟨es, hback, hwalk, hlen, hnodup⟩ := backtrack_spec hg hreached
  refine ⟨es, hback, hvalid, hwalk, ?_, ?_, ?_, ?_⟩
  · rw [compose_cost]
    exact hlen
  · rw [compose_cost]
  · rw [compose_nodes, map_map]
    exact hnodup
  · intro es' len hwalk' hlen'
    rw [compose_cost]
    exact search_dist_le hg hwalk' hlen'

variable {path : Path}

/-- **A successful search.** The ends are enabled, the path is a shortest one, and the latency that
is reported for it is within the bound. -/
theorem shortest_eq_ok (h : shortest clock snapshot intent policyName options = .ok path) :
    (enabled snapshot (options.resolve clock) intent.source = true ∧
        enabled snapshot (options.resolve clock) intent.destination = true) ∧
      (∃ edges, Found snapshot intent policyName (options.resolve clock) path edges) ∧
      (0 < intent.maxLatencyUS → path.latencyUS ≤ intent.maxLatencyUS) := by
  unfold shortest at h
  cases hvalid : intent.validate with
  | error e => rw [hvalid] at h; cases h
  | ok u =>
    rw [hvalid] at h
    dsimp only at h
    split_ifs at h with hdisabled hreached
    obtain ⟨es, hback, hfound⟩ :=
      found_of_reached (RouteIntent.validate_eq_ok_iff.mp hvalid) hreached
    rw [hback] at h
    dsimp only at h
    split_ifs at h with hexceeds
    cases h
    rw [reverse_reverse] at hexceeds ⊢
    refine ⟨by simpa using hdisabled, ⟨es, hfound⟩, fun hbound => ?_⟩
    exact not_lt.mp fun hlt => hexceeds ⟨hbound, hlt⟩

theorem shortest_found (h : shortest clock snapshot intent policyName options = .ok path) :
    ∃ edges, Found snapshot intent policyName (options.resolve clock) path edges :=
  (shortest_eq_ok h).2.1

end Search

variable {snapshot : TopologySnapshot} {intent : RouteIntent} {policyName : String}
  {options : Options}

theorem connects_of_isWalk {u v : String} {es : List Edge}
    (h : (graph snapshot intent policyName options).IsWalk u es v) :
    Connects u (es.map Edge.link) v := by
  induction es generalizing u with
  | nil => exact h
  | cons e es ih => exact ⟨h.2.1, ih h.2.2⟩

theorem getLast?_of_connects {u v : String} {links : List Link} (h : Connects u links v) :
    (u :: links.map Link.target).getLast? = some v := by
  induction links generalizing u with
  | nil => exact congrArg some h
  | cons link links ih =>
    exact ih h.2

theorem Found.realizes {path : Path} {edges : List Edge}
    (h : Found snapshot intent policyName options path edges) :
    Realizes snapshot intent options path (edges.map Edge.link) := by
  have hmem : ∀ link ∈ edges.map Edge.link,
      link ∈ snapshot.links ∧ Admitted snapshot intent options link := by
    intro link hlink
    obtain ⟨e, he, rfl⟩ := mem_map.mp hlink
    obtain ⟨hmem, hadm, -⟩ := mem_edges.mp (h.walk.mem_edges e he)
    exact ⟨hmem, hadm⟩
  refine ⟨connects_of_isWalk h.walk, fun l hl => (hmem l hl).1, fun l hl => (hmem l hl).2,
    ?_, ?_, h.simple, fun group => ?_⟩
  · rw [h.path_eq, compose_nodes]
  · rw [h.path_eq, compose_links]
  · rw [h.path_eq, mem_compose_riskGroups]

/-! ### The path to the source itself -/

section

variable {clock : Time} {snapshot : TopologySnapshot} {intent : RouteIntent} {policyName : String}
  {options : Options} {path : Path} {edges : List Edge}

theorem Found.edges_eq_nil_iff (h : Found snapshot intent policyName options path edges) :
    edges = [] ↔ intent.source = intent.destination := by
  constructor
  · rintro rfl
    exact h.walk
  · intro heq
    by_contra hne
    have hlast := getLast?_of_connects h.realizes.connects
    have hnodup := h.simple
    rw [h.path_eq, compose_nodes, nodup_cons] at hnodup
    have hmap : (edges.map Edge.link).map Link.target ≠ [] := by simpa using hne
    rw [getLast?_cons, getLast?_eq_getLast_of_ne_nil hmap] at hlast
    have hmem := getLast_mem hmap
    rw [show ((edges.map Edge.link).map Link.target).getLast hmap = intent.source from
      (Option.some.inj hlast).trans heq.symm] at hmem
    exact hnodup.1 hmem

theorem Found.cost_cases (h : Found snapshot intent policyName options path edges) :
    (intent.source = intent.destination ∧ path.cost = 0 ∧ path.nodes.length = 1) ∨
      (intent.source ≠ intent.destination ∧ 0 < path.cost ∧ 2 ≤ path.nodes.length) := by
  have hnodes : path.nodes = intent.source :: (edges.map Edge.link).map Link.target := by
    rw [h.path_eq, compose_nodes]
  have hself := h.edges_eq_nil_iff
  have hlength := h.length
  rw [hnodes]
  cases edges with
  | nil => exact .inl ⟨hself.mp rfl, (Option.some.inj hlength).symm, rfl⟩
  | cons e edges =>
    refine .inr ⟨fun heq => cons_ne_nil e edges (hself.mpr heq), ?_, ?_⟩
    · have hg := graph_lawful snapshot intent policyName options
      have hmem := h.walk.mem_edges
      obtain ⟨d, hd, hrest⟩ := Option.bind_eq_some_iff.mp hlength
      have hpos := hg.lt_extend e (hmem e mem_cons_self) 0 d le_rfl hd
      exact hpos.trans_le (hg.le_length (fun f hf => hmem f (mem_cons_of_mem e hf)) hpos.le hrest)
    · rw [map_cons, map_cons]
      simp

theorem shortest_self (hvalid : intent.Valid) (heq : intent.source = intent.destination)
    (henabled : enabled snapshot (options.resolve clock) intent.source = true) :
    shortest clock snapshot intent policyName options = .ok (compose intent.source 0 []) := by
  have hg := graph_lawful snapshot intent policyName (options.resolve clock)
  have hwalk : (graph snapshot intent policyName (options.resolve clock)).IsWalk
      intent.source [] intent.destination := heq
  have hle := search_dist_le hg hwalk rfl
  have hreached : (search (graph snapshot intent policyName (options.resolve clock))
      intent.source intent.destination).dist intent.destination ≠ Int64.maxValue := by
    intro htop
    rw [htop] at hle
    have hzero : Int64.maxValue ≤ 0 := hle
    exact absurd hzero (by decide)
  obtain ⟨edges, hback, hfound⟩ := found_of_reached hvalid hreached
  obtain rfl := hfound.edges_eq_nil_iff.mpr heq
  have hcost := Option.some.inj hfound.length
  rw [compose_cost] at hcost
  unfold shortest
  rw [RouteIntent.validate_eq_ok_iff.mpr hvalid]
  rw [if_neg (by rw [← heq, henabled]; decide), if_neg hreached, hback]
  rw [← hcost]
  refine if_neg fun hexceeds => ?_
  have hzero : (0 : Int64) < 0 := hexceeds.1.trans hexceeds.2
  exact absurd hzero (by decide)

end

end StarFabric.Policy

import StarFabric.Policy.Exact

/-!
# The best path

A path along admitted links is an `IsPath`, and it is `Cheapest` when no other one costs less, in
unbounded integers. `Shortest` returns a cheapest path (`shortest_sound_optimal`). The latency bound
is checked on this one path alone, so a path within the bound may be missed (`faster_path_missed`),
unless every cheapest path is within the bound (`shortest_complete`).
-/

namespace StarFabric.Policy

open Go Dijkstra Int64 List

/-- A path from source to destination along links that the filters admit. -/
structure IsPath (snapshot : TopologySnapshot) (intent : RouteIntent) (options : Options)
    (links : List Link) : Prop where
  source : enabled snapshot options intent.source = true
  connects : Connects intent.source links intent.destination
  mem_links : ∀ link ∈ links, link ∈ snapshot.links
  admitted : ∀ link ∈ links, Admitted snapshot intent options link

def Cheapest (snapshot : TopologySnapshot) (intent : RouteIntent) (policyName : String)
    (options : Options) (links : List Link) : Prop :=
  IsPath snapshot intent options links ∧ ∀ other, IsPath snapshot intent options other →
    totalCost policyName links ≤ totalCost policyName other

section Walks

variable {clock : Time} {snapshot : TopologySnapshot} {intent : RouteIntent} {policyName : String}
  {options : Options} {path : Path} {links : List Link}

/-! ### Paths as walks -/

def edgeOf (policyName : String) (link : Link) : Edge := ⟨link, edgeCost link policyName⟩

theorem IsPath.mem_edges (h : IsPath snapshot intent options links) {link : Link}
    (hlink : link ∈ links) :
    edgeOf policyName link ∈ (graph snapshot intent policyName options).edges :=
  Policy.mem_edges.mpr ⟨h.mem_links link hlink, h.admitted link hlink, rfl⟩

theorem IsPath.isWalk (h : IsPath snapshot intent options links) :
    (graph snapshot intent policyName options).IsWalk intent.source
      (links.map (edgeOf policyName)) intent.destination := by
  have hedges : ∀ link ∈ links,
      edgeOf policyName link ∈ (graph snapshot intent policyName options).edges :=
    fun link hlink => h.mem_edges hlink
  have hwalk : ∀ (ls : List Link) (u : String), Connects u ls intent.destination →
      (∀ link ∈ ls, link ∈ links) → (graph snapshot intent policyName options).IsWalk u
        (ls.map (edgeOf policyName)) intent.destination := by
    intro ls
    induction ls with
    | nil => exact fun u hu _ => hu
    | cons link ls ih =>
      intro u hu hmem
      obtain ⟨hsource, hrest⟩ := hu
      refine ⟨hedges link (hmem link mem_cons_self), hsource, ?_⟩
      exact ih link.target hrest fun l hl => hmem l (mem_cons_of_mem link hl)
  exact hwalk links intent.source h.connects fun _ hlink => hlink

theorem IsPath.destination (h : IsPath snapshot intent options links) :
    enabled snapshot options intent.destination = true := by
  have hend : ∀ (ls : List Link) (u : String), enabled snapshot options u = true →
      Connects u ls intent.destination → (∀ link ∈ ls, link ∈ links) →
      enabled snapshot options intent.destination = true := by
    intro ls
    induction ls with
    | nil => exact fun u hu heq _ => heq ▸ hu
    | cons link ls ih =>
      intro u _ hconnects hmem
      have hlink : link ∈ links := hmem link mem_cons_self
      exact ih link.target (h.admitted link hlink).target hconnects.2
        fun l hl => hmem l (mem_cons_of_mem link hl)
  exact hend links intent.source h.source h.connects fun _ hlink => hlink

theorem Realizes.isPath (h : Realizes snapshot intent options path links)
    (hsource : enabled snapshot options intent.source = true) :
    IsPath snapshot intent options links :=
  ⟨hsource, h.connects, h.mem_links, h.admitted⟩

theorem Realizes.enabled (h : Realizes snapshot intent options path links)
    (hsource : enabled snapshot options intent.source = true) :
    ∀ node ∈ path.nodes, Policy.enabled snapshot options node = true := by
  rw [h.nodes_eq]
  intro node hnode
  obtain rfl | hnode := mem_cons.mp hnode
  · exact hsource
  · obtain ⟨link, hlink, rfl⟩ := mem_map.mp hnode
    exact (h.admitted link hlink).target

/-! ### Lengths -/

theorem exists_length {es : List Edge} {d : Int64}
    (hes : ∀ e ∈ es, e ∈ (graph snapshot intent policyName options).edges)
    (hpos : ∀ e ∈ es, 0 < e.cost) (hd : 0 ≤ d)
    (hlt : d.toInt + (es.map fun e => e.cost.toInt).sum < 2 ^ 63) :
    ∃ d', (graph snapshot intent policyName options).length d es = some d' := by
  induction es generalizing d with
  | nil => exact ⟨d, rfl⟩
  | cons e es ih =>
    obtain ⟨he, hes⟩ := forall_mem_cons.mp hes
    obtain ⟨hcost, hpos⟩ := forall_mem_cons.mp hpos
    have hrest : 0 ≤ (es.map fun e => e.cost.toInt).sum := by
      refine sum_nonneg fun n hn => ?_
      obtain ⟨f, hf, rfl⟩ := mem_map.mp hn
      exact (lt_iff_toInt_lt.mp (hpos f hf)).le
    rw [map_cons, sum_cons, ← add_assoc] at hlt
    have hsum : (d + e.cost).toInt = d.toInt + e.cost.toInt :=
      toInt_add_of_lt hd hcost.le (by omega)
    have hnonneg : 0 ≤ d + e.cost := by
      have hd' := le_iff_toInt_le.mp hd
      have hcost' := lt_iff_toInt_lt.mp hcost
      have h0 : (0 : Int64).toInt = 0 := rfl
      rw [le_iff_toInt_le, hsum]
      omega
    obtain ⟨d', hlength⟩ := ih hes hpos hnonneg (hsum ▸ hlt)
    refine ⟨d', ?_⟩
    show ((graph snapshot intent policyName options).extend d e).bind _ = some d'
    rw [(extend_eq_some he hd).mpr ⟨hcost, hsum⟩]
    exact hlength

variable (hexact : ExactCosts snapshot intent policyName options)
  (h : IsPath snapshot intent options links)
include hexact h

theorem sum_edgeOf :
    ((links.map (edgeOf policyName)).map fun e => e.cost.toInt).sum =
      totalCost policyName links := by
  rw [map_map]
  exact congrArg List.sum (map_congr_left fun link hlink =>
    hexact link (h.mem_links link hlink) (h.admitted link hlink))

theorem IsPath.length (hlt : totalCost policyName links < 2 ^ 63) :
    ∃ len, (graph snapshot intent policyName options).length 0
        (links.map (edgeOf policyName)) = some len ∧
      len.toInt = totalCost policyName links := by
  have hedges : ∀ e ∈ links.map (edgeOf policyName),
      e ∈ (graph snapshot intent policyName options).edges :=
    forall_mem_map.mpr fun link hlink => h.mem_edges hlink
  have hpos : ∀ e ∈ links.map (edgeOf policyName), 0 < e.cost := by
    refine forall_mem_map.mpr fun link hlink => ?_
    have hadmitted := h.admitted link hlink
    rw [lt_iff_toInt_lt]
    show 0 < (edgeCost link policyName).toInt
    rw [hexact link (h.mem_links link hlink) hadmitted]
    exact exactCost_pos hadmitted.usable
  have hsum := sum_edgeOf hexact h
  obtain ⟨len, hlen⟩ := exists_length hedges hpos le_rfl (by
    rw [hsum]
    exact (zero_add _).trans_lt hlt)
  refine ⟨len, hlen, ?_⟩
  have hlen' := length_eq_some hedges le_rfl hlen
  rw [hsum] at hlen'
  exact hlen'.trans (zero_add _)

theorem Found.le_totalCost {edges : List Edge}
    (hfound : Found snapshot intent policyName options path edges) :
    path.cost.toInt ≤ totalCost policyName links := by
  by_cases hlt : totalCost policyName links < 2 ^ 63
  · obtain ⟨len, hlength, hcost⟩ := h.length hexact hlt
    rw [← hcost]
    exact le_iff_toInt_le.mp (hfound.least _ len h.isWalk hlength)
  · -- the sum of the costs does not even fit into 64 bits
    have hbound := toInt_lt path.cost
    omega

end Walks

/-! ### Soundness and completeness -/

section

variable {clock : Time} {snapshot : TopologySnapshot} {intent : RouteIntent} {policyName : String}
  {options : Options} {path : Path} {links : List Link}

/-- **Soundness and optimality.** When the costs of the links do not overflow, a path that
`Shortest` returns leads from the source to the destination along admitted links through enabled
nodes, none of them twice. Its cost is that of its links, and no path costs less. -/
theorem shortest_sound_optimal
    (hexact : ExactCosts snapshot intent policyName (options.resolve clock))
    (h : shortest clock snapshot intent policyName options = .ok path) :
    ∃ links, Realizes snapshot intent (options.resolve clock) path links ∧
      path.nodes.head? = some intent.source ∧ path.nodes.getLast? = some intent.destination ∧
      (∀ node ∈ path.nodes, enabled snapshot (options.resolve clock) node = true) ∧
      path.cost.toInt = totalCost policyName links ∧
      ∀ other, IsPath snapshot intent (options.resolve clock) other →
        path.cost.toInt ≤ totalCost policyName other := by
  obtain ⟨⟨hsource, -⟩, ⟨edges, hfound⟩, -⟩ := shortest_eq_ok h
  have hrealizes := hfound.realizes
  refine ⟨edges.map Edge.link, hrealizes, ?_, ?_, hrealizes.enabled hsource,
    hfound.totalCost_eq hexact, fun other hother => hfound.le_totalCost hexact hother⟩
  · rw [hrealizes.nodes_eq, head?_cons]
  · rw [hrealizes.nodes_eq]
    exact getLast?_of_connects hrealizes.connects

theorem shortest_sound_optimal_chain :
    ∃ path, shortest 1 (chain 5) chainIntent "hops" {} = .ok path ∧
      ∃ links, Realizes (chain 5) chainIntent { at_ := 1 } path links ∧
        path.cost.toInt = totalCost "hops" links ∧
        ∀ other, IsPath (chain 5) chainIntent { at_ := 1 } other →
          path.cost.toInt ≤ totalCost "hops" other := by
  have hok : (shortest 1 (chain 5) chainIntent "hops" {}).toOption.isSome = true := by
    decide +kernel
  obtain ⟨path, hpath⟩ := ExceptFold.exists_ok_of_isSome hok
  have hexact : ExactCosts (chain 5) chainIntent "hops" { at_ := 1 } := fun _ _ _ => rfl
  obtain ⟨links, hrealizes, -, -, -, hcost, hleast⟩ := shortest_sound_optimal hexact hpath
  exact ⟨path, hpath, links, hrealizes, hcost, hleast⟩

theorem reached_of_isPath (hexact : ExactCosts snapshot intent policyName options)
    (h : IsPath snapshot intent options links) (hlt : totalCost policyName links < 2 ^ 63 - 1) :
    (search (graph snapshot intent policyName options) intent.source
      intent.destination).dist intent.destination ≠ Int64.maxValue := by
  obtain ⟨len, hlength, hcost⟩ := h.length hexact (by omega)
  have hle := search_dist_le (graph_lawful snapshot intent policyName options) h.isWalk hlength
  intro htop
  rw [htop, le_iff_toInt_le, toInt_maxValue, hcost] at hle
  omega

/-- **Completeness under the bound.** The search returns a path when there is one and the cheapest
paths take no more than the intent allows. -/
theorem shortest_of_cheapest (hvalid : intent.Valid)
    (hexact : ExactCosts snapshot intent policyName (options.resolve clock))
    (h : IsPath snapshot intent (options.resolve clock) links)
    (hlt : totalCost policyName links < 2 ^ 63 - 1)
    (hcheapest : ∀ other, Cheapest snapshot intent policyName (options.resolve clock) other →
      totalLatency other ≤ intent.maxLatencyUS.toInt) :
    ∃ path, shortest clock snapshot intent policyName options = .ok path := by
  obtain ⟨edges, hback, hfound⟩ := found_of_reached hvalid (reached_of_isPath hexact h hlt)
  have hrealizes := hfound.realizes
  have hbest : Cheapest snapshot intent policyName (options.resolve clock)
      (edges.map Edge.link) := by
    refine ⟨hrealizes.isPath h.source, fun other hother => ?_⟩
    rw [← hfound.totalCost_eq hexact]
    exact hfound.le_totalCost hexact hother
  have hbound := hcheapest _ hbest
  have hlatency := (compose_latency_exact_iff intent.source
    ((search (graph snapshot intent policyName (options.resolve clock)) intent.source
      intent.destination).dist intent.destination)
    fun link hlink => (hrealizes.admitted link hlink).usable.latency).mpr
      (hbound.trans_lt (toInt_lt _))
  unfold shortest
  rw [RouteIntent.validate_eq_ok_iff.mpr hvalid]
  rw [if_neg (by simp [h.source, h.destination]), if_neg (reached_of_isPath hexact h hlt), hback]
  dsimp only
  rw [reverse_reverse, if_neg]
  · exact ⟨_, rfl⟩
  · rintro ⟨-, hexceeds⟩
    rw [lt_iff_toInt_lt, hlatency] at hexceeds
    omega

theorem totalCost_eq_totalLatency (hhops : policyName ≠ "hops")
    (hcapacity : policyName ≠ "capacity")
    (hreliability : policyName ≠ "reliability") (h : ∀ link ∈ links, 0 < link.latencyUS) :
    totalCost policyName links = totalLatency links := by
  refine congrArg List.sum (map_congr_left fun link hlink => ?_)
  have hpos : 0 < link.latencyUS.toInt := lt_iff_toInt_lt.mp (h link hlink)
  unfold exactCost
  rw [if_neg hhops, if_neg hcapacity, if_neg hreliability]
  exact max_eq_right hpos

end

def wire (id source target : String) (latency : Int64) : Link :=
  { id := id, source := source, target := target, adminUp := true, operationalUp := true
    latencyUS := latency, capacityBPS := 100 }

/-- A direct link from `s` to `d`, and three links through `a` and `b`. -/
def detour (direct around : Int64) : TopologySnapshot where
  version := 1
  nodes := [{ id := "s", enabled := true }, { id := "a", enabled := true },
    { id := "b", enabled := true }, { id := "d", enabled := true }]
  links := [wire "sd" "s" "d" direct, wire "sa" "s" "a" around, wire "ab" "a" "b" around,
    wire "bd" "b" "d" around]

def detourIntent (policyName : String) (maxLatencyUS : Int64) : RouteIntent :=
  { id := "i", source := "s", destination := "d", destinationPrefix := "10.1.0.0/16"
    policy := policyName, maxLatencyUS := maxLatencyUS }

def around (latency : Int64) : List Link :=
  [wire "sa" "s" "a" latency, wire "ab" "a" "b" latency, wire "bd" "b" "d" latency]

theorem isPath_of_admits {snapshot : TopologySnapshot} {intent : RouteIntent} {links : List Link}
    {options : Options} (hsource : enabled snapshot options intent.source = true)
    (hconnects : Connects intent.source links intent.destination)
    (hlinks : ∀ link ∈ links, link ∈ snapshot.links ∧ admits snapshot intent options link = true) :
    IsPath snapshot intent options links :=
  ⟨hsource, hconnects, fun link hlink => (hlinks link hlink).1,
    fun link hlink => admits_iff.mp (hlinks link hlink).2⟩

end StarFabric.Policy

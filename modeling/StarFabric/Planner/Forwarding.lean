import StarFabric.Planner.Redundancy
import StarFabric.Lib.HopByHop

/-!
# Forwarding by a plan

When the devices hold exactly the routes of a plan, every packet of an intent arrives, whatever
route of the lowest metric the nodes choose on the way (`Round.Best`). All of these are on shortest
paths of one graph, so every hop takes the packet further from the source
(`Round.Succeeds.exists_rank`).
-/

namespace StarFabric.Planner

open Go Policy HopByHop List

/-- A next hop of the node: some route for the prefix that no other route for it beats. -/
def Hop (table : String → List RouteOperation) (destinationPrefix : String) (v w : String) : Prop :=
  ∃ route ∈ table v, route.routePrefix = destinationPrefix ∧ route.nextHopNode = w ∧
    ∀ other ∈ table v, other.routePrefix = destinationPrefix → route.metric ≤ other.metric

def Crosses (snapshot : TopologySnapshot) (now : Time) (maxTelemetryAge : Duration)
    (v w : String) : Prop :=
  ∃ link ∈ snapshot.links, link.source = v ∧ link.target = w ∧
    link.usable now maxTelemetryAge = true

def Round.Best (r : Round) (path : Path) : Prop :=
  ∃ i, r.paths[i]? = some path ∧ (roleMetric r.intent r.primary i path).2 = 100

theorem exists_hop_of_connects {u v x : String} {links : List Link} (h : Connects u links v)
    (hx : x ∈ u :: links.map Link.target) (hne : x ≠ v) :
    ∃ link ∈ links, link.source = x := by
  induction links generalizing u with
  | nil =>
    obtain rfl := h
    exact absurd (mem_singleton.mp hx) hne
  | cons link links ih =>
    obtain ⟨rfl, h⟩ := h
    rcases mem_cons.mp hx with rfl | hx
    · exact ⟨link, mem_cons_self, rfl⟩
    · obtain ⟨next, hnext, hsource⟩ := ih h hx
      exact ⟨next, mem_cons_of_mem link hnext, hsource⟩

section Best

variable {p : Planner} {clock now : Time} {snapshot : TopologySnapshot} {r : Round}

theorem hundred_le_metric (intent : RouteIntent) (primary : Path) (i : ℕ) (path : Path) :
    100 ≤ (roleMetric intent primary i path).2 := by
  unfold roleMetric
  split_ifs
  · exact le_rfl
  · exact le_rfl
  · change (100 : ℤ) ≤ 200 + i
    omega

theorem best_primary (r : Round) : r.Best r.primary := ⟨0, rfl, rfl⟩

variable {path : Path}

theorem Round.Best.mem (h : r.Best path) : path ∈ r.paths := by
  obtain ⟨i, hi, -⟩ := h
  exact mem_of_getElem? hi

/-- What is installed at the lowest metric: the primary path, or a path of an `ecmp` intent
that costs the same. -/
theorem Round.Best.cases (h : r.Best path) :
    path = r.primary ∨
      (path ∈ r.backups ∧ r.intent.policy = "ecmp" ∧ path.cost = r.primary.cost) := by
  obtain ⟨i, hi, hmetric⟩ := h
  cases i with
  | zero => exact .inl (Option.some.inj hi).symm
  | succ i =>
    refine .inr ⟨mem_of_getElem? (i := i) hi, ?_⟩
    by_contra hnot
    unfold roleMetric at hmetric
    rw [if_neg (Nat.succ_ne_zero i), if_neg hnot] at hmetric
    change (200 : ℤ) + ((i + 1 : ℕ) : ℤ) = 100 at hmetric
    omega

def Round.Shortest (p : Planner) (now : Time) (r : Round) (path : Path) : Prop :=
  ∃ edges, (graph r.before.residual r.intent "ecmp" (searchOptions p now)).IsWalk
      r.intent.source edges r.intent.destination ∧
    (graph r.before.residual r.intent "ecmp" (searchOptions p now)).length 0 edges =
      some r.primary.cost ∧
    hops path = edges.map fun e => (e.link.source, e.link.target)

theorem shortest_of_found {options : Options} {edges : List Edge}
    (hle : (searchOptions p now).Le options)
    (h : Found r.before.residual r.intent "ecmp" options path edges)
    (hcost : path.cost = r.primary.cost) : r.Shortest p now path := by
  refine ⟨edges, isWalk_of_le hle h.walk, ?_, ?_⟩
  · rw [← hcost, ← h.length]
    refine Dijkstra.Graph.length_congr ?_ 0 edges
    rfl
  · rw [h.realizes.hops, map_map]
    rfl

section

variable (hr : r.Succeeds p clock snapshot now)
include hr

theorem Round.Succeeds.ecmp (hclock : now = 0 → clock = 0) (hecmp : r.intent.policy = "ecmp") :
    (∃ edges, Found r.before.residual r.intent "ecmp" (searchOptions p now) r.primary edges) ∧
      ∀ path, r.Best path → r.Shortest p now path := by
  have hpolicy : p.policies.policy "ecmp" = some (costPolicy "ecmp") :=
    p.policies.builtin "ecmp" (by decide)
  obtain ⟨engine, hengine, hprimary, hpaths⟩ := hr.computed
  obtain rfl : engine = costPolicy "ecmp" := Option.some.inj (hengine.symm.trans (hecmp ▸ hpolicy))
  have hfound : ∀ path options, (searchOptions p now).Le options →
      (costPolicy "ecmp").compute clock r.before.residual r.intent options = .ok path →
      ∃ edges, Found r.before.residual r.intent "ecmp" options path edges := by
    intro path options hle hcompute
    have hedges := shortest_found hcompute
    rwa [resolve_searchOptions hclock hle] at hedges
  refine ⟨hfound _ _ (Options.Le.refl _) hprimary, fun path hbest => ?_⟩
  obtain ⟨options, hle, hcompute⟩ := hpaths path hbest.mem
  obtain ⟨edges, hedges⟩ := hfound path options hle hcompute
  refine shortest_of_found hle hedges ?_
  rcases hbest.cases with rfl | ⟨-, -, hcost⟩
  · rfl
  · exact hcost

theorem Round.Succeeds.exists_rank (hp : p.policies.Sound) (hclock : now = 0 → clock = 0)
    (hvalid : snapshot.Valid) (hacc : Accounted snapshot r.before) :
    ∃ rank : String → ℕ, ∀ path, r.Best path → ∀ hop ∈ hops path, rank hop.2 < rank hop.1 := by
  by_cases hecmp : r.intent.policy = "ecmp"
  · obtain ⟨⟨_, hfound⟩, hshortest⟩ := hr.ecmp hclock hecmp
    obtain ⟨rank, hrank⟩ := Dijkstra.exists_rank (graph_lawful ..) hfound.least
    refine ⟨rank, fun path hbest hop hhop => ?_⟩
    obtain ⟨edges, hwalk, hlength, hhops⟩ := hshortest path hbest
    rw [hhops] at hhop
    obtain ⟨e, he, rfl⟩ := mem_map.mp hhop
    exact hrank edges hwalk hlength e he
  · obtain ⟨⟨links, hlinks⟩, -⟩ := hr.realizes hp hclock hvalid hacc
    obtain ⟨rank, hrank⟩ := exists_rank_of_nodup hlinks.simple
    refine ⟨rank, fun path hbest hop hhop => ?_⟩
    rcases hbest.cases with rfl | ⟨-, hpolicy, -⟩
    · exact hrank hop hhop
    · exact absurd hpolicy hecmp

theorem Round.Succeeds.mem_routes {route : RouteOperation} (h : route ∈ r.routes) :
    route.routePrefix = r.intent.destinationPrefix ∧ ∃ i path, r.paths[i]? = some path ∧
      (route.device, route.nextHopNode) ∈ hops path ∧
      route.metric = (roleMetric r.intent r.primary i path).2 := by
  obtain ⟨i, path, hi, hop, hhop, hok⟩ := (intentRoutes_spec hr.routes_ok).1 route h
  obtain ⟨next, address, hnext, -, rfl⟩ := hopRoute_eq_ok hok
  refine ⟨rfl, i, path, hi, ?_, rfl⟩
  rwa [(mem_of_lookup_mapBy hnext).2]

theorem Round.Succeeds.exists_route (hbest : r.Best path) {hop : String × String}
    (hhop : hop ∈ hops path) :
    ∃ route ∈ r.routes, route.device = hop.1 ∧ route.nextHopNode = hop.2 ∧ route.metric = 100 := by
  obtain ⟨i, hi, hmetric⟩ := hbest
  obtain ⟨route, hroute, hok⟩ := (intentRoutes_spec hr.routes_ok).2 i path hi hop hhop
  obtain ⟨next, address, hnext, -, rfl⟩ := hopRoute_eq_ok hok
  exact ⟨_, hroute, rfl, (mem_of_lookup_mapBy hnext).2, hmetric⟩

end

/-- The table holds, for the prefix of the round, exactly the routes of the round. -/
def Round.InstalledIn (r : Round) (table : String → List RouteOperation) : Prop :=
  ∀ v route, route ∈ table v ∧ route.routePrefix = r.intent.destinationPrefix ↔
    route ∈ r.routes ∧ route.device = v

variable {table : String → List RouteOperation}

theorem Round.Succeeds.hop_iff (hr : r.Succeeds p clock snapshot now) (htable : r.InstalledIn table)
    {v : String} (hgoes : ∃ path, r.Best path ∧ ∃ w, (v, w) ∈ hops path) {w : String} :
    Hop table r.intent.destinationPrefix v w ↔ ∃ path, r.Best path ∧ (v, w) ∈ hops path := by
  constructor
  · rintro ⟨route, hroute, hfor, rfl, hleast⟩
    obtain ⟨hmem, rfl⟩ := (htable v route).mp ⟨hroute, hfor⟩
    obtain ⟨-, i, path, hi, hhop, hmetric⟩ := hr.mem_routes hmem
    obtain ⟨best, hbest, w, hw⟩ := hgoes
    obtain ⟨other, hother, hdevice, -, hlow⟩ := hr.exists_route hbest hw
    obtain ⟨hin, hotherFor⟩ := (htable route.device other).mpr ⟨hother, hdevice⟩
    have hle := hleast other hin hotherFor
    have hge := hundred_le_metric r.intent r.primary i path
    exact ⟨path, ⟨i, hi, by omega⟩, hhop⟩
  · rintro ⟨path, hbest, hhop⟩
    obtain ⟨route, hroute, hdevice, hnext, hmetric⟩ := hr.exists_route hbest hhop
    obtain ⟨hin, hfor⟩ := (htable v route).mpr ⟨hroute, hdevice⟩
    refine ⟨route, hin, hfor, hnext, fun other hother hotherFor => ?_⟩
    obtain ⟨hmem, -⟩ := (htable v other).mp ⟨hother, hotherFor⟩
    obtain ⟨-, i, path', -, -, hmetric'⟩ := hr.mem_routes hmem
    rw [hmetric, hmetric']
    exact hundred_le_metric ..

theorem Round.Succeeds.arrives (hp : p.policies.Sound) (hclock : now = 0 → clock = 0)
    (hvalid : snapshot.Valid) (hr : r.Succeeds p clock snapshot now)
    (hacc : Accounted snapshot r.before) (htable : r.InstalledIn table) :
    Arrives (Hop table r.intent.destinationPrefix) (Crosses snapshot now p.maxTelemetryAge)
      r.intent.destination [] r.intent.source := by
  obtain ⟨hprimary, hpaths⟩ := hr.realizes hp hclock hvalid hacc
  obtain ⟨rank, hrank⟩ := hr.exists_rank hp hclock hvalid hacc
  -- a best path goes on from every node but the destination
  have hgoes : ∀ v, (∃ path, r.Best path ∧ v ∈ path.nodes) → v ≠ r.intent.destination →
      ∃ path, r.Best path ∧ ∃ w, (v, w) ∈ hops path := by
    rintro v ⟨path, hbest, hv⟩ hne
    obtain ⟨options, links, -, hlinks⟩ := hpaths path hbest.mem
    rw [hlinks.nodes_eq] at hv
    obtain ⟨link, hlink, rfl⟩ := exists_hop_of_connects hlinks.connects hv hne
    refine ⟨path, hbest, link.target, ?_⟩
    rw [hlinks.hops]
    exact mem_map_of_mem hlink
  refine arrives_of_rank (fun v => ∃ path, r.Best path ∧ v ∈ path.nodes) rank ?_ ?_ ?_ ?_
  · intro v hv hne
    obtain ⟨path, hbest, w, hw⟩ := hgoes v hv hne
    exact ⟨w, (hr.hop_iff htable ⟨path, hbest, w, hw⟩).mpr ⟨path, hbest, hw⟩⟩
  · intro v w hv hne hhop
    obtain ⟨path, hbest, hw⟩ := (hr.hop_iff htable (hgoes v hv hne)).mp hhop
    refine ⟨?_, ⟨path, hbest, ?_⟩, hrank path hbest _ hw⟩
    · obtain ⟨options, hle, link, hlink, -, heq, hadm⟩ :=
        hr.hop_link hp hclock hvalid hacc hbest.mem hw
      cases heq
      have husable := hadm.usable
      rw [hle.at_eq, hle.age_eq] at husable
      refine ⟨link, hlink, rfl, rfl, Link.usable_iff.mpr { husable with capacity := ?_ }⟩
      exact hacc.capacity_pos hlink husable.capacity
    · exact mem_of_mem_tail (of_mem_zip hw).2
  · obtain ⟨links, hlinks⟩ := hprimary
    refine ⟨r.primary, best_primary r, ?_⟩
    rw [hlinks.nodes_eq]
    exact mem_cons_self
  · exact nofun

end Best

section Forwarding

variable {p : Planner} {clock now : Time} {snapshot : TopologySnapshot} {plan : RoutePlan}
  {digest : Payload → String} {intents : List RouteIntent} {rounds : List Round} {draft : Draft}
  {table : String → List RouteOperation}

theorem orderIntents_perm (intents : List RouteIntent) : (orderIntents intents).Perm intents :=
  perm_insertionSort _ intents

theorem Built.installedIn (hbuilt : Built digest p clock snapshot intents now rounds draft plan)
    (hsucceeds : ∀ r ∈ rounds, r.Succeeds p clock snapshot now)
    (hdistinct : (intents.map RouteIntent.destinationPrefix).Nodup)
    (htable : ∀ device, (table device).Perm (plan.share device)) {r : Round} (hr : r ∈ rounds) :
    r.InstalledIn table := by
  have hmap : (rounds.map fun r => r.input.destinationPrefix).Nodup := by
    have hperm := (orderIntents_perm intents).map RouteIntent.destinationPrefix
    rw [← hbuilt.inputs, map_map] at hperm
    exact hperm.nodup_iff.mpr hdistinct
  have hfor : ∀ r ∈ rounds, r.intent.destinationPrefix = r.input.destinationPrefix := by
    intro r hr
    obtain ⟨destination, -, -, heq⟩ := (hsucceeds r hr).intent_eq
    rw [heq]
  have hshare : ∀ v route, route ∈ table v ↔ route ∈ plan.routes ∧ route.device = v := by
    intro v route
    rw [(htable v).mem_iff, RoutePlan.share, mem_filter, decide_eq_true_eq]
  intro v route
  rw [hshare, hbuilt.records.routes]
  constructor
  · rintro ⟨⟨⟨r', hr', hroute⟩, hdevice⟩, hin⟩
    have hsame : r'.input.destinationPrefix = r.input.destinationPrefix := by
      rw [← hfor r hr, ← hfor r' hr', ← hin, ((hsucceeds r' hr').mem_routes hroute).1]
    obtain rfl := inj_on_of_nodup_map hmap hr' hr hsame
    exact ⟨hroute, hdevice⟩
  · rintro ⟨hroute, hdevice⟩
    exact ⟨⟨⟨r, hr, hroute⟩, hdevice⟩, ((hsucceeds r hr).mem_routes hroute).1⟩

/-- **Forwarding.** When every device holds its share of the plan and the intents have distinct
prefixes, the packets of every intent arrive at the destination chosen for it: whatever routes
of the lowest metric they follow, they meet no node twice and cross only links that were usable
when the plan was made. -/
theorem build_forwards (hp : p.policies.Sound)
    (h : build digest p clock snapshot intents now = .ok plan)
    (hdistinct : (intents.map RouteIntent.destinationPrefix).Nodup)
    (htable : ∀ device, (table device).Perm (plan.share device)) {intent : RouteIntent}
    (hintent : intent ∈ intents) :
    ∃ destination ∈ candidates intent, { intent with destination := destination } ∈ plan.intents ∧
      Arrives (Hop table intent.destinationPrefix)
        (Crosses snapshot (buildTime clock now) p.maxTelemetryAge) destination [] intent.source := by
  obtain ⟨rounds, draft, hbuilt⟩ := build_run h
  have hrounds := hbuilt.accounted_rounds hp
  obtain ⟨r, hr, rfl⟩ : ∃ r ∈ rounds, r.input = intent := by
    have hmem := (orderIntents_perm intents).mem_iff.mpr hintent
    rw [← hbuilt.inputs] at hmem
    exact mem_map.mp hmem
  obtain ⟨hacc, hsucceeds⟩ := hrounds r hr
  have harrives := hsucceeds.arrives hp hbuilt.clock_eq hbuilt.valid hacc
    (hbuilt.installedIn (fun r hr => (hrounds r hr).2) hdistinct htable hr)
  obtain ⟨destination, hcandidate, -, heq⟩ := hsucceeds.intent_eq
  refine ⟨destination, hcandidate, ?_, ?_⟩
  · rw [hbuilt.records.intents, ← heq]
    exact mem_map_of_mem hr
  · rw [heq] at harrives
    exact harrives

end Forwarding

theorem build_forwards_diamond : ∃ plan, diamondBuild = .ok plan ∧
    Arrives (Hop plan.share "10.1.0.0/16") (Crosses diamond 1 0) "d" [] "s" := by
  obtain ⟨plan, hplan⟩ : ∃ plan, diamondBuild = .ok plan :=
    ExceptFold.exists_ok_of_isSome (by decide +kernel)
  obtain ⟨destination, hmem, -, harrives⟩ := build_forwards (new_sound rfl) hplan
    (nodup_singleton _) (fun _ => List.Perm.refl _) (mem_singleton_self diamondIntent)
  have hcandidates : candidates diamondIntent = ["d"] := by decide +kernel
  rw [hcandidates, mem_singleton] at hmem
  subst hmem
  exact ⟨plan, hplan, harrives⟩

end StarFabric.Planner

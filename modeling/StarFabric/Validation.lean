import StarFabric.Model.Plan

/-!
# Plan validation

`internal/validation/validation.go`: the last check of a plan against a topology
and a clock reading before a device sees it.
-/

namespace StarFabric.Validation

open Go List

def usableEdges (snapshot : TopologySnapshot) (now : Time) : List String :=
  (snapshot.links.filter fun link => link.usable now 0).map fun link =>
    edgeKey link.source link.target

def routeKey (route : RouteOperation) : String :=
  route.device ++ "\x00" ++ route.routePrefix ++ "\x00" ++ toString route.metric ++ "\x00" ++
    route.nextHopNode

def checkRoute (nodes : Map Node) (edges : List String) (route : RouteOperation) :
    Except String Unit :=
  match nodes.lookup route.device with
  | none => .error ("route references unknown device " ++ quote route.device)
  | some device =>
    let unavailable := "route on " ++ quote route.device ++
      " references unavailable next hop " ++ quote route.nextHopNode
    match nodes.lookup route.nextHopNode with
    | none => .error unavailable
    | some next =>
      -- the device itself may be disabled
      if next.enabled = false then .error unavailable
      else match device.nextHopAddress next with
        | .error e => .error e
        | .ok address =>
          if address ≠ route.nextHop then
            .error ("route next-hop address mismatch for " ++ quote route.nextHopNode)
          else if edgeKey route.device route.nextHopNode ∉ edges then
            .error ("next hop " ++ route.device ++ " -> " ++ route.nextHopNode ++
              " is not reachable")
          else match parsePrefix route.routePrefix with
            | .error e => .error ("invalid prefix " ++ quote route.routePrefix ++ ": " ++ e)
            | .ok _ => .ok ()

/-- The route loop of `Plan`, with the keys seen so far. -/
def checkRoutes (nodes : Map Node) (edges : List String) (seen : List String) :
    List RouteOperation → Except String Unit
  | [] => .ok ()
  | route :: rest =>
    match checkRoute nodes edges route with
    | .error e => .error e
    | .ok () =>
      if routeKey route ∈ seen then
        .error ("duplicate route on " ++ quote route.device ++ " for " ++ quote route.routePrefix)
      else checkRoutes nodes edges (routeKey route :: seen) rest

def checkLoop (intentID : String) (visited : List String) : List String → Except String Unit
  | [] => .ok ()
  | node :: rest =>
    if node ∈ visited then
      .error ("intent " ++ quote intentID ++ " path contains loop at " ++ quote node)
    else checkLoop intentID (node :: visited) rest

def checkPathList (intentID : String) : List Path → Except String Unit
  | [] => .ok ()
  | path :: rest =>
    match checkLoop intentID [] path.nodes with
    | .error e => .error e
    | .ok () => checkPathList intentID rest

def checkPaths : List (String × List Path) → Except String Unit
  | [] => .ok ()
  | (intentID, paths) :: rest =>
    if paths = [] then .error ("intent " ++ quote intentID ++ " has no path")
    else match checkPathList intentID paths with
      | .error e => .error e
      | .ok () => checkPaths rest

def plan (plan : RoutePlan) (snapshot : TopologySnapshot) (now : Time) : Except String Unit :=
  if plan.id = "" then .error "plan id is required"
  else if plan.topologyVersion ≠ snapshot.version then
    .error ("topology version mismatch: plan=" ++ toString plan.topologyVersion ++
      " current=" ++ toString snapshot.version)
  else if ¬ now < plan.expiresAt then .error "route plan has expired"
  else match checkRoutes snapshot.nodeMap (usableEdges snapshot now) [] plan.routes with
    | .error e => .error e
    -- the order in which Go visits the map decides only which error is reported
    | .ok () => checkPaths (plan.paths.entries.map fun entry => (entry.1, entry.2))

/-! ### What is accepted -/

theorem checkRoutes_eq_ok_iff {nodes : Map Node} {edges seen : List String}
    {routes : List RouteOperation} :
    checkRoutes nodes edges seen routes = .ok () ↔
      (∀ route ∈ routes, checkRoute nodes edges route = .ok () ∧ routeKey route ∉ seen) ∧
        (routes.map routeKey).Nodup := by
  induction routes generalizing seen with
  | nil => simp [checkRoutes]
  | cons route rest ih =>
    unfold checkRoutes
    cases hroute : checkRoute nodes edges route with
    | error e =>
      refine iff_of_false nofun fun h => ?_
      rw [(h.1 route mem_cons_self).1] at hroute
      cases hroute
    | ok u =>
      by_cases hseen : routeKey route ∈ seen
      · rw [if_pos hseen]
        exact iff_of_false nofun fun h => (h.1 route mem_cons_self).2 hseen
      · rw [if_neg hseen, ih]
        exact unseen_cons_iff hroute hseen

theorem checkLoop_eq_ok_iff {intentID : String} {visited nodes : List String} :
    checkLoop intentID visited nodes = .ok () ↔ nodes.Nodup ∧ ∀ node ∈ nodes, node ∉ visited := by
  induction nodes generalizing visited with
  | nil => simp [checkLoop]
  | cons node rest ih =>
    unfold checkLoop
    simp only [forall_mem_cons, nodup_cons]
    by_cases hseen : node ∈ visited
    · rw [if_pos hseen]
      exact iff_of_false nofun fun h => h.2.1 hseen
    · rw [if_neg hseen, ih]
      simp only [mem_cons, not_or]
      constructor
      · rintro ⟨hnodup, hall⟩
        exact ⟨⟨fun hmem => (hall node hmem).1 rfl, hnodup⟩, hseen, fun n hn => (hall n hn).2⟩
      · rintro ⟨⟨hnew, hnodup⟩, -, hall⟩
        exact ⟨hnodup, fun n hn => ⟨fun heq => hnew (heq ▸ hn), hall n hn⟩⟩

theorem checkPathList_eq_ok_iff {intentID : String} {paths : List Path} :
    checkPathList intentID paths = .ok () ↔ ∀ path ∈ paths, path.nodes.Nodup := by
  induction paths with
  | nil => simp [checkPathList]
  | cons path rest ih =>
    unfold checkPathList
    rw [forall_mem_cons]
    cases hloop : checkLoop intentID [] path.nodes with
    | error e =>
      refine iff_of_false nofun fun h => ?_
      rw [checkLoop_eq_ok_iff.mpr ⟨h.1, fun _ _ => not_mem_nil⟩] at hloop
      cases hloop
    | ok u => exact ih.trans (and_iff_right (checkLoop_eq_ok_iff.mp hloop).1).symm

theorem checkPaths_eq_ok_iff {entries : List (String × List Path)} :
    checkPaths entries = .ok () ↔
      ∀ entry ∈ entries, entry.2 ≠ [] ∧ ∀ path ∈ entry.2, path.nodes.Nodup := by
  induction entries with
  | nil => simp [checkPaths]
  | cons entry rest ih =>
    unfold checkPaths
    rw [forall_mem_cons]
    by_cases hnone : entry.2 = []
    · rw [if_pos hnone]
      exact iff_of_false nofun fun h => h.1.1 hnone
    · rw [if_neg hnone]
      cases hlist : checkPathList entry.1 entry.2 with
      | error e =>
        refine iff_of_false nofun fun h => ?_
        rw [checkPathList_eq_ok_iff.mpr h.1.2] at hlist
        cases hlist
      | ok u => exact ih.trans (and_iff_right ⟨hnone, checkPathList_eq_ok_iff.mp hlist⟩).symm

structure Accepted (p : RoutePlan) (snapshot : TopologySnapshot) (now : Time) : Prop where
  id_ne : p.id ≠ ""
  version_eq : p.topologyVersion = snapshot.version
  alive : now < p.expiresAt
  routes : ∀ route ∈ p.routes, checkRoute snapshot.nodeMap (usableEdges snapshot now) route = .ok ()
  keys : (p.routes.map routeKey).Nodup
  paths : ∀ id paths, p.paths.lookup id = some paths → paths ≠ [] ∧ ∀ path ∈ paths, path.nodes.Nodup

theorem plan_eq_ok_iff {p : RoutePlan} {snapshot : TopologySnapshot} {now : Time} :
    plan p snapshot now = .ok () ↔ Accepted p snapshot now := by
  unfold plan
  by_cases hid : p.id = ""
  · rw [if_pos hid]
    exact iff_of_false nofun fun h => h.id_ne hid
  rw [if_neg hid]
  by_cases hversion : p.topologyVersion = snapshot.version
  swap
  · rw [if_pos hversion]
    exact iff_of_false nofun fun h => hversion h.version_eq
  rw [if_neg (not_not.mpr hversion)]
  by_cases halive : now < p.expiresAt
  swap
  · rw [if_pos halive]
    exact iff_of_false nofun fun h => halive h.alive
  rw [if_neg (not_not.mpr halive)]
  cases hroutes : checkRoutes snapshot.nodeMap (usableEdges snapshot now) [] p.routes with
  | error e =>
    refine iff_of_false nofun fun h => ?_
    rw [checkRoutes_eq_ok_iff.mpr ⟨fun r hr => ⟨h.routes r hr, not_mem_nil⟩, h.keys⟩] at hroutes
    cases hroutes
  | ok u =>
    obtain ⟨hall, hkeys⟩ := checkRoutes_eq_ok_iff.mp hroutes
    refine checkPaths_eq_ok_iff.trans ?_
    constructor
    · intro h
      refine ⟨hid, hversion, halive, fun r hr => (hall r hr).1, hkeys, fun id paths hpaths => ?_⟩
      exact h (id, paths) (mem_map.mpr ⟨⟨id, paths⟩, AList.mem_lookup_iff.mp hpaths, rfl⟩)
    · intro h entry hentry
      obtain ⟨⟨id, paths⟩, hmem, rfl⟩ := mem_map.mp hentry
      exact h.paths id paths (AList.mem_lookup_iff.mpr hmem)

end StarFabric.Validation

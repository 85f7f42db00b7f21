import StarFabric.Policy.Registry

/-!
# Operations that may panic

A division by zero, an index or a slice out of range and a write to a nil map end a Go program. Here
the functions of the search are written once more with every such operation checked, and they
compute the same (`checkedShortest_eq`, `checkedDisjoint_eq`). Divisions by a constant and indices
that a `range` clause gives are not checked again.
-/

namespace StarFabric.Policy

open Go Dijkstra List

/-! ### The operations -/

def quotient (a b : Int64) : Except Failure Int64 :=
  if b = 0 then .error (.panic "integer divide by zero") else .ok (a / b)

def index {α : Type} (s : List α) (i : ℕ) : Except Failure α :=
  match s[i]? with
  | none => .error (.panic "index out of range")
  | some a => .ok a

def slice {α : Type} (s : List α) (low high : ℤ) : Except Failure (List α) :=
  if 0 ≤ low ∧ low ≤ high ∧ high ≤ s.length then .ok ((s.take high.toNat).drop low.toNat)
  else .error (.panic "slice bounds out of range")

/-- A map from strings that is only ever set to true, as the list of its keys, or nil. -/
abbrev KeyMap := Option (List String)

def KeyMap.assign (m : KeyMap) (key : String) : Except Failure KeyMap :=
  match m with
  | none => .error (.panic "assignment to entry in nil map")
  | some keys => .ok (some (keys ++ [key]))

/-- `if m == nil { m = make(map[string]bool) }`. -/
def KeyMap.make (m : KeyMap) : KeyMap := some (m.getD [])

def KeyMap.assignAll (m : KeyMap) (keys : List String) : Except Failure KeyMap :=
  keys.foldlM KeyMap.assign m

theorem slice_interior {α : Type} (s : List α) : slice s 1 (s.length - 1) =
    if s.length < 2 then .error (.panic "slice bounds out of range") else .ok s.tail.dropLast := by
  unfold slice
  by_cases hlength : s.length < 2
  · rw [if_neg (by omega), if_pos hlength]
  · rw [if_pos (by omega), if_neg hlength]
    have hhigh : ((s.length : ℤ) - 1).toNat = s.length - 1 := by omega
    rw [hhigh, ← dropLast_eq_take, ← tail_dropLast]
    exact congrArg _ drop_one

theorem assignAll_make (m : KeyMap) (keys : List String) :
    m.make.assignAll keys = .ok (some (m.getD [] ++ keys)) := by
  have hall : ∀ before : List String,
      KeyMap.assignAll (some before) keys = .ok (some (before ++ keys)) := by
    induction keys with
    | nil => exact fun before => by rw [append_nil]; rfl
    | cons key keys ih =>
      intro before
      show KeyMap.assignAll (some (before ++ [key])) keys = _
      rw [ih, append_assoc]
      rfl
  exact hall (m.getD [])

theorem mapM_eq_ok {α β : Type} {f : α → Except Failure β} {l : List α} {out : List β}
    (h : List.Forall₂ (fun a b => f a = .ok b) l out) : l.mapM f = .ok out := by
  induction h with
  | nil => rw [mapM_nil]; rfl
  | cons ha _ ih =>
    rw [mapM_cons, ha, ih]
    rfl

theorem mapM_index_reverse {α : Type} (s : List α) :
    (List.range s.length).reverse.mapM (index s) = .ok s.reverse := by
  have hindices : List.Forall₂ (fun i a => index s i = .ok a) (List.range s.length) s := by
    refine forall₂_iff_get.mpr ⟨length_range, fun i hi hi' => ?_⟩
    unfold index
    rw [get_eq_getElem, getElem_range, getElem?_eq_getElem hi']
    rfl
  exact mapM_eq_ok (rel_reverse hindices)

def indexPair {α : Type} (s : List α) (i : ℕ) : Except Failure (α × α) := do
  let a ← index s i
  let b ← index s (i + 1)
  return (a, b)

theorem mapM_indexPair {α : Type} (s : List α) :
    (List.range (s.length - 1)).mapM (indexPair s) = .ok (s.zip s.tail) := by
  induction s with
  | nil => rfl
  | cons a s ih =>
    cases s with
    | nil => rfl
    | cons b s =>
      have hrange : List.range ((a :: b :: s).length - 1) =
          0 :: (List.range ((b :: s).length - 1)).map Nat.succ := range_succ_eq_map
      -- from the second element on, the loop is the one over the tail
      have hshift : indexPair (a :: b :: s) ∘ Nat.succ = indexPair (b :: s) := rfl
      rw [hrange, mapM_cons, mapM_map, hshift, ih]
      rfl

/-! ### The search -/

/-- `edgeCost`, with the division by the capacity checked. -/
def checkedEdgeCost (link : Link) (policyName : String) : Except Failure Int64 :=
  if policyName = "hops" then .ok 1
  else if policyName = "capacity" then do
    let share ← quotient 1000000000000 link.capacityBPS
    return share + max 1 (link.latencyUS / 1000)
  else if policyName = "reliability" then
    .ok (max 1 (1000000 - link.reliabilityPPM) + max 1 (link.latencyUS / 100))
  else .ok (max 1 link.latencyUS)

def checkedEdge (policyName : String) (link : Link) : Except Failure Edge := do
  let cost ← checkedEdgeCost link policyName
  return { link := link, cost := cost }

def graphOf (edges : List Edge) : Graph String Edge Int64 String where
  edges := edges
  source := fun e => e.link.source
  target := fun e => e.link.target
  out := fun node => (edges.filter fun e => e.link.source = node).insertionSort
    fun a b => edgeLess b a = false
  ident := fun e => e.link.id
  zero := 0
  extend := fun dist e => if Int64.maxValue - e.cost < dist then none else some (dist + e.cost)

def checkedPath (intent : RouteIntent) (g : Graph String Edge Int64 String) : Except Failure Path :=
  let found := search g intent.source intent.destination
  if found.dist intent.destination = Int64.maxValue then .error (.error errNoPath)
  else match backtrack g found.prev intent.source g.edges.length intent.destination with
    | none => .error (.error errNoPath)
    | some reversed => do
      -- the loop counts down from the last index
      let links ← (List.range reversed.length).reverse.mapM (index (reversed.map Edge.link))
      let path := compose intent.source (found.dist intent.destination) links
      if 0 < intent.maxLatencyUS ∧ intent.maxLatencyUS < path.latencyUS then
        .error (.error (errNoPath ++ ": latency " ++ toString path.latencyUS ++ " exceeds " ++
          toString intent.maxLatencyUS))
      else .ok path

def checkedShortest (clock : Time) (snapshot : TopologySnapshot) (intent : RouteIntent)
    (policyName : String) (options : Options) : Except Failure Path :=
  match intent.validate with
  | .error e => .error (.error e)
  | .ok () =>
    let options := options.resolve clock
    if !enabled snapshot options intent.source || !enabled snapshot options intent.destination then
      .error (.error (errNoPath ++ ": endpoint disabled or absent"))
    else do
      let edges ← (snapshot.links.filter (admits snapshot intent options)).mapM
        (checkedEdge policyName)
      checkedPath intent (graphOf edges)

section Search

variable {clock : Time} {snapshot : TopologySnapshot} {intent : RouteIntent} {policyName : String}
  {options : Options}

theorem checkedEdge_eq {link : Link} {at_ : Time} {maxTelemetryAge : Duration}
    (h : link.Usable at_ maxTelemetryAge) :
    checkedEdge policyName link = .ok { link := link, cost := edgeCost link policyName } := by
  have hcapacity : link.capacityBPS ≠ 0 := h.capacity.ne'
  unfold checkedEdge checkedEdgeCost edgeCost quotient
  split_ifs
  · rfl
  · rfl
  · rfl
  · rfl

theorem mapM_checkedEdge :
    (snapshot.links.filter (admits snapshot intent options)).mapM (checkedEdge policyName) =
      .ok (graph snapshot intent policyName options).edges := by
  refine mapM_eq_ok (forall₂_map_right_iff.mpr (forall₂_same.mpr fun link hlink => ?_))
  have hadmitted := admits_iff.mp (mem_filter.mp hlink).2
  exact checkedEdge_eq hadmitted.usable

theorem checkedShortest_eq :
    checkedShortest clock snapshot intent policyName options =
      (shortest clock snapshot intent policyName options).mapError Failure.error := by
  unfold checkedShortest shortest
  cases hvalid : intent.validate with
  | error e => rfl
  | ok u =>
    by_cases hdisabled : (!enabled snapshot (options.resolve clock) intent.source ||
        !enabled snapshot (options.resolve clock) intent.destination) = true
    · rw [if_pos hdisabled, if_pos hdisabled]
      rfl
    rw [if_neg hdisabled, if_neg hdisabled, mapM_checkedEdge]
    show checkedPath intent (graph snapshot intent policyName (options.resolve clock)) = _
    unfold checkedPath
    generalize graph snapshot intent policyName (options.resolve clock) = g
    by_cases hreached : (search g intent.source intent.destination).dist intent.destination =
        Int64.maxValue
    · rw [if_pos hreached, if_pos hreached]
      rfl
    rw [if_neg hreached, if_neg hreached]
    cases backtrack g (search g intent.source intent.destination).prev intent.source
        g.edges.length intent.destination with
    | none => rfl
    | some reversed =>
      have hlinks := mapM_index_reverse (reversed.map Edge.link)
      rw [length_map] at hlinks
      dsimp only
      rw [hlinks, ← map_reverse]
      show (if _ then _ else _) = _
      split_ifs
      · rfl
      · rfl

end Search

/-! ### Disjoint backups -/

structure MapOptions where
  at_ : Time := 0
  maxTelemetryAge : Duration := 0
  excludedLinks : KeyMap := none
  excludedNodes : KeyMap := none
  excludedRiskGroups : KeyMap := none

def MapOptions.read (options : MapOptions) : Options where
  at_ := options.at_
  maxTelemetryAge := options.maxTelemetryAge
  excludedLinks := options.excludedLinks.getD []
  excludedNodes := options.excludedNodes.getD []
  excludedRiskGroups := options.excludedRiskGroups.getD []

def checkedHops (path : Path) : Except Failure (List (String × String)) :=
  (List.range (path.nodes.length - 1)).mapM (indexPair path.nodes)

/-- The writes of `DisjointWithPolicy` to the exclusion maps. -/
def checkedExclude (snapshot : TopologySnapshot) (primary : Path) (nodeDisjoint : Bool)
    (options : MapOptions) : Except Failure MapOptions := do
  let excludedLinks ← options.excludedLinks.make.assignAll primary.links
  let hops ← checkedHops primary
  let primaryEdges := hops.flatMap fun hop => [edgeKey hop.1 hop.2, edgeKey hop.2 hop.1]
  let excludedLinks ← excludedLinks.assignAll ((snapshot.links.filter fun link =>
    edgeKey link.source link.target ∈ primaryEdges).map Link.id)
  let excludedRiskGroups ← options.excludedRiskGroups.make.assignAll primary.riskGroups
  let options := { options with
    excludedLinks := excludedLinks
    excludedRiskGroups := excludedRiskGroups }
  if nodeDisjoint then do
    let interior ← slice primary.nodes 1 (primary.nodes.length - 1)
    let excludedNodes ← options.excludedNodes.make.assignAll interior
    return { options with excludedNodes := excludedNodes }
  else return options

/-- `DisjointWithPolicy` with a built-in policy, and the exclusions it leaves behind. -/
def checkedDisjoint (policyName : String) (clock : Time) (snapshot : TopologySnapshot)
    (intent : RouteIntent) (primary : Path) (nodeDisjoint : Bool) (options : MapOptions) :
    Except Failure (Path × MapOptions) := do
  let options ← checkedExclude snapshot primary nodeDisjoint options
  let path ← checkedShortest clock snapshot intent policyName options.read
  return (path, options)

section Disjoint

variable {clock : Time} {snapshot : TopologySnapshot} {intent : RouteIntent} {policyName : String}
  {primary : Path} {nodeDisjoint : Bool}

theorem checkedHops_eq (path : Path) : checkedHops path = .ok (hops path) :=
  mapM_indexPair path.nodes

theorem assignAll_some (before keys : List String) :
    KeyMap.assignAll (some before) keys = .ok (some (before ++ keys)) :=
  assignAll_make (some before) keys

/-- **The writes of `DisjointWithPolicy`.** No map is nil when it is written to. What is left to
fail is the slice of the interior nodes. -/
theorem checkedExclude_eq (options : MapOptions) :
    (checkedExclude snapshot primary nodeDisjoint options).map MapOptions.read =
      exclude snapshot primary nodeDisjoint options.read := by
  unfold checkedExclude exclude
  rw [assignAll_make, checkedHops_eq]
  simp only [bind, Except.bind, assignAll_some, assignAll_make, slice_interior]
  cases nodeDisjoint with
  | false => rfl
  | true =>
    rw [if_pos rfl, if_pos rfl]
    show _ = if primary.nodes.length < 2 then _ else _
    split_ifs
    · rfl
    · rfl

theorem checkedDisjoint_eq (options : MapOptions) :
    (checkedDisjoint policyName clock snapshot intent primary nodeDisjoint options).map
        (Prod.map id MapOptions.read) =
      disjointWithPolicy (costPolicy policyName) clock snapshot intent primary nodeDisjoint
        options.read := by
  unfold checkedDisjoint disjointWithPolicy
  rw [← checkedExclude_eq]
  cases checkedExclude snapshot primary nodeDisjoint options with
  | error e => rfl
  | ok after =>
    show ((checkedShortest clock snapshot intent policyName after.read >>= fun path =>
      pure (path, after)).map _) = _
    rw [checkedShortest_eq]
    dsimp only [Except.map, costPolicy]
    cases shortest clock snapshot intent policyName after.read with
    | error e => rfl
    | ok path => rfl

end Disjoint

end StarFabric.Policy

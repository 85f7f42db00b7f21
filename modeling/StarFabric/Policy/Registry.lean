import StarFabric.Policy.Path

/-!
# Named policies and disjoint backups

`internal/policy/plugin.go`. The five built-in policies are in every `Registry`. What results about
arbitrary registries ask of another policy is `PathPolicy.Sound`. `disjointWithPolicy` adds what a
path uses to the exclusions, and returns them for the next call.
-/

namespace StarFabric.Policy

open Go List

/-- `PathPolicy`. The clock reading stands for what a policy reads itself. -/
structure PathPolicy where
  name : String
  compute : Time → TopologySnapshot → RouteIntent → Options → Except String Path

def costPolicy (name : String) : PathPolicy where
  name := name
  compute := fun clock snapshot intent options => shortest clock snapshot intent name options

def builtins : List String := ["latency", "ecmp", "hops", "capacity", "reliability"]

structure Registry where
  policies : Map PathPolicy
  builtin : ∀ name ∈ builtins, policies.lookup name = some (costPolicy name)

namespace Registry

def base : Registry where
  policies := builtins.foldl (fun policies name => policies.insert name (costPolicy name)) ∅
  builtin := by
    intro name h
    simp only [builtins, mem_cons, not_mem_nil, or_false] at h
    rcases h with rfl | rfl | rfl | rfl | rfl <;> rfl

theorem builtin_insert (r : Registry) {candidate : PathPolicy}
    (hnew : r.policies.lookup candidate.name = none) :
    ∀ name ∈ builtins,
      (r.policies.insert candidate.name candidate).lookup name = some (costPolicy name) := by
  intro name hname
  have hne : name ≠ candidate.name := by
    rintro rfl
    rw [r.builtin _ hname] at hnew
    cases hnew
  rw [AList.lookup_insert_ne hne]
  exact r.builtin name hname

def register (r : Registry) : Option PathPolicy → Except String Registry
  | none => .error "policy and non-empty policy name are required"
  | some candidate =>
    if candidate.name = "" then .error "policy and non-empty policy name are required"
    else if hnew : r.policies.lookup candidate.name = none then
      .ok ⟨r.policies.insert candidate.name candidate, r.builtin_insert hnew⟩
    else .error ("policy " ++ quote candidate.name ++ " already registered")

/-- One round of the loop of `NewRegistry`. A policy that cannot be registered is passed
over. -/
def add (r : Registry) (candidate : Option PathPolicy) : Registry :=
  match r.register candidate with
  | .ok r' => r'
  | .error _ => r

def new (extra : List (Option PathPolicy)) : Registry := extra.foldl add base

def resolveName (name : String) : String := if name = "" then "latency" else name

def policy (r : Registry) (name : String) : Option PathPolicy :=
  r.policies.lookup (resolveName name)

def compute (r : Registry) (clock : Time) (name : String) (snapshot : TopologySnapshot)
    (intent : RouteIntent) (options : Options) : Except String Path :=
  match r.policy name with
  | none => .error ("unknown path policy " ++ quote (resolveName name))
  | some candidate => candidate.compute clock snapshot intent options

end Registry

/-! ### Soundness -/

/-- A path the policy returns passes the filters of the built-in search. -/
def PathPolicy.Sound (p : PathPolicy) : Prop :=
  ∀ clock snapshot intent options path, snapshot.Valid → intent.Valid →
    p.compute clock snapshot intent options = .ok path →
      ∃ links, Realizes snapshot intent (options.resolve clock) path links

theorem costPolicy_sound (name : String) : (costPolicy name).Sound := by
  intro clock snapshot intent options path _ _ h
  obtain ⟨edges, hfound⟩ := shortest_found h
  exact ⟨_, hfound.realizes⟩

namespace Registry

def Sound (r : Registry) : Prop := ∀ name p, r.policies.lookup name = some p → p.Sound

variable {r : Registry} {name : String} {p : PathPolicy}

theorem Sound.policy (hr : r.Sound) (h : r.policy name = some p) : p.Sound := hr _ p h

theorem base_lookup (h : base.policies.lookup name = some p) :
    name ∈ builtins ∧ p = costPolicy name := by
  -- this holds of the policies registered so far, after every round of the loop over the names
  refine foldlRecOn (motive := fun m : Map PathPolicy =>
    ∀ name p, m.lookup name = some p → name ∈ builtins ∧ p = costPolicy name) builtins _ ?_ ?_
    name p h
  · intro name p h
    cases h
  · intro m hm name hname name' p h
    rcases of_lookup_insert h with ⟨rfl, rfl⟩ | hbefore
    · exact ⟨hname, rfl⟩
    · exact hm name' p hbefore

theorem base_sound : base.Sound := by
  intro name p h
  obtain ⟨-, rfl⟩ := base_lookup h
  exact costPolicy_sound name

variable {candidate : Option PathPolicy}

theorem Sound.register {r' : Registry} (hr : r.Sound) (hc : ∀ p ∈ candidate, p.Sound)
    (h : r.register candidate = .ok r') : r'.Sound := by
  cases candidate with
  | none => cases h
  | some candidate =>
    unfold Registry.register at h
    dsimp only at h
    split_ifs at h with hname hnew
    cases h
    intro name p hp
    rcases of_lookup_insert hp with ⟨rfl, rfl⟩ | hbefore
    · exact hc p rfl
    · exact hr name p hbefore

theorem Sound.add (hr : r.Sound) (hc : ∀ p ∈ candidate, p.Sound) : (r.add candidate).Sound := by
  unfold Registry.add
  cases hreg : r.register candidate with
  | ok r' => exact hr.register hc hreg
  | error e => exact hr

theorem new_sound {extra : List (Option PathPolicy)}
    (h : ∀ candidate ∈ extra, ∀ p ∈ candidate, p.Sound) : (new extra).Sound := by
  refine foldlRecOn (motive := Registry.Sound) extra add base_sound ?_
  intro r hr candidate hmem
  exact hr.add (h candidate hmem)

end Registry

/-! ### Disjoint backups -/

/-- How a call ends other than with a value. -/
inductive Failure where
  | error (text : String)
  | panic (text : String)
  deriving DecidableEq, Repr

/-- `fmt.Errorf` with the failure wrapped. A panic passes through. -/
def Failure.wrap (label : String) : Failure → Failure
  | .error text => .error (label ++ text)
  | .panic text => .panic text

def hops (path : Path) : List (String × String) := path.nodes.zip path.nodes.tail

def interior (path : Path) : List String := path.nodes.tail.dropLast

/-- The keys of `primaryEdges`: every adjacency of the path in both directions. -/
def primaryEdges (path : Path) : List String :=
  (hops path).flatMap fun hop => [edgeKey hop.1 hop.2, edgeKey hop.2 hop.1]

/-- The exclusions that `DisjointWithPolicy` adds. The slice of interior nodes panics on a
path of a single node. -/
def exclude (snapshot : TopologySnapshot) (primary : Path) (nodeDisjoint : Bool)
    (options : Options) : Except Failure Options :=
  let options := { options with
    excludedLinks := options.excludedLinks ++ primary.links ++ (snapshot.links.filter fun link =>
        edgeKey link.source link.target ∈ primaryEdges primary).map Link.id
    excludedRiskGroups := options.excludedRiskGroups ++ primary.riskGroups }
  if nodeDisjoint then
    if primary.nodes.length < 2 then .error (.panic "slice bounds out of range")
    else .ok { options with excludedNodes := options.excludedNodes ++ interior primary }
  else .ok options

/-- `DisjointWithPolicy`, with the exclusions it leaves behind. -/
def disjointWithPolicy (engine : PathPolicy) (clock : Time) (snapshot : TopologySnapshot)
    (intent : RouteIntent) (primary : Path) (nodeDisjoint : Bool) (options : Options) :
    Except Failure (Path × Options) :=
  match exclude snapshot primary nodeDisjoint options with
  | .error e => .error e
  | .ok options => match engine.compute clock snapshot intent options with
    | .error e => .error (.error e)
    | .ok path => .ok (path, options)

/-- Two paths have nothing in common that could fail for both: no link, no adjacency in
either direction, no risk group and, on request, no interior node. -/
structure Disjoint (nodeDisjoint : Bool) (a b : Path) : Prop where
  links : ∀ id ∈ a.links, id ∉ b.links
  hops : ∀ hop ∈ hops a, hop ∉ hops b ∧ (hop.2, hop.1) ∉ hops b
  groups : ∀ group ∈ a.riskGroups, group ∉ b.riskGroups
  interior : nodeDisjoint = true → ∀ node ∈ interior a, node ∉ interior b

/-- The options keep a search off everything the path uses. -/
structure Excludes (snapshot : TopologySnapshot) (nodeDisjoint : Bool) (path : Path)
    (options : Options) : Prop where
  links : ∀ id ∈ path.links, id ∈ options.excludedLinks
  edges : ∀ link ∈ snapshot.links, edgeKey link.source link.target ∈ primaryEdges path →
    link.id ∈ options.excludedLinks
  groups : ∀ group ∈ path.riskGroups, group ∈ options.excludedRiskGroups
  interior : nodeDisjoint = true → ∀ node ∈ interior path, node ∈ options.excludedNodes

/-- The second options exclude at least what the first do, and agree otherwise. -/
structure Options.Le (a b : Options) : Prop where
  at_eq : b.at_ = a.at_
  age_eq : b.maxTelemetryAge = a.maxTelemetryAge
  links : ∀ id ∈ a.excludedLinks, id ∈ b.excludedLinks
  nodes : ∀ id ∈ a.excludedNodes, id ∈ b.excludedNodes
  groups : ∀ group ∈ a.excludedRiskGroups, group ∈ b.excludedRiskGroups

section Disjoint

variable {snapshot : TopologySnapshot} {intent : RouteIntent} {nodeDisjoint : Bool}
  {path other : Path} {options options' : Options} {links : List Link}

theorem Options.Le.refl (a : Options) : a.Le a :=
  ⟨rfl, rfl, fun _ h => h, fun _ h => h, fun _ h => h⟩

theorem Options.Le.trans {a b c : Options} (hab : a.Le b) (hbc : b.Le c) : a.Le c :=
  ⟨hbc.at_eq.trans hab.at_eq, hbc.age_eq.trans hab.age_eq, fun _ h => hbc.links _ (hab.links _ h),
    fun _ h => hbc.nodes _ (hab.nodes _ h), fun _ h => hbc.groups _ (hab.groups _ h)⟩

theorem Admitted.of_le {link : Link} (hle : options.Le options')
    (h : Admitted snapshot intent options' link) : Admitted snapshot intent options link := by
  have henabled : ∀ {id},
      enabled snapshot options' id = true → enabled snapshot options id = true := by
    intro id hid
    obtain ⟨node, hnode, hen, hnot⟩ := enabled_iff.mp hid
    exact enabled_iff.mpr ⟨node, hnode, hen, fun hmem => hnot (hle.nodes id hmem)⟩
  refine ⟨fun hmem => h.not_excluded (hle.links _ hmem), henabled h.source, henabled h.target, ?_,
    fun group hg hmem => h.groups group hg (hle.groups group hmem), h.capacity, h.loss,
    h.reliability⟩
  rw [← hle.at_eq, ← hle.age_eq]
  exact h.usable

theorem isWalk_of_le {policyName : String} (hle : options.Le options') {u v : String}
    {es : List Edge} (h : (graph snapshot intent policyName options').IsWalk u es v) :
    (graph snapshot intent policyName options).IsWalk u es v := by
  refine h.mono ?_ ?_ fun e he => ?_
  · rfl
  · rfl
  · obtain ⟨hmem, hadm, hcost⟩ := mem_edges.mp he
    exact mem_edges.mpr ⟨hmem, hadm.of_le hle, hcost⟩

theorem Excludes.mono (h : Excludes snapshot nodeDisjoint path options)
    (hle : options.Le options') : Excludes snapshot nodeDisjoint path options' :=
  ⟨fun id hid => hle.links id (h.links id hid),
    fun link hlink hkey => hle.links _ (h.edges link hlink hkey),
    fun group hgroup => hle.groups group (h.groups group hgroup),
    fun hnd node hnode => hle.nodes node (h.interior hnd node hnode)⟩

theorem exclude_cases (h : exclude snapshot path nodeDisjoint options = .ok options') :
    ∃ nodes, (nodeDisjoint = true → nodes = interior path) ∧ options' = { options with
      excludedLinks := options.excludedLinks ++ path.links ++ (snapshot.links.filter fun link =>
          edgeKey link.source link.target ∈ primaryEdges path).map Link.id
      excludedNodes := options.excludedNodes ++ nodes
      excludedRiskGroups := options.excludedRiskGroups ++ path.riskGroups } := by
  unfold exclude at h
  cases nodeDisjoint with
  | false =>
    cases h
    exact ⟨[], nofun, by rw [append_nil]⟩
  | true =>
    rw [if_pos rfl] at h
    split_ifs at h
    cases h
    exact ⟨interior path, fun _ => rfl, rfl⟩

theorem exclude_spec (h : exclude snapshot path nodeDisjoint options = .ok options') :
    Excludes snapshot nodeDisjoint path options' ∧ options.Le options' := by
  obtain ⟨nodes, hnodes, rfl⟩ := exclude_cases h
  refine ⟨⟨fun id hid => ?_, fun link hlink hkey => ?_, fun group hgroup => ?_,
    fun hnd node hnode => ?_⟩, rfl, rfl, fun id hid => ?_, fun id hid => ?_, fun group hgroup => ?_⟩
  · exact mem_append_left _ (mem_append_right _ hid)
  · refine mem_append_right _ (mem_map_of_mem (mem_filter.mpr ⟨hlink, ?_⟩))
    exact decide_eq_true hkey
  · exact mem_append_right _ hgroup
  · exact mem_append_right _ (hnodes hnd ▸ hnode)
  · exact mem_append_left _ (mem_append_left _ hid)
  · exact mem_append_left _ hid
  · exact mem_append_left _ hgroup

theorem hops_of_connects {u v : String} (h : Connects u links v) :
    (u :: links.map Link.target).zip (links.map Link.target) =
      links.map fun link => (link.source, link.target) := by
  induction links generalizing u with
  | nil => rfl
  | cons link links ih =>
    obtain ⟨rfl, h⟩ := h
    rw [map_cons, zip_cons_cons, ih h, map_cons]

variable (h : Realizes snapshot intent options path links)
include h

theorem Realizes.hops : hops path = links.map fun link => (link.source, link.target) := by
  unfold Policy.hops
  rw [h.nodes_eq, tail_cons]
  exact hops_of_connects h.connects

theorem Realizes.interior {node : String} (hnode : node ∈ interior path) :
    ∃ link ∈ links, link.target = node := by
  unfold Policy.interior at hnode
  rw [h.nodes_eq, tail_cons] at hnode
  exact mem_map.mp (dropLast_subset _ hnode)

theorem Realizes.links_nodup (hvalid : snapshot.Valid) : path.links.Nodup := by
  have htargets : (links.map Link.target).Nodup := by
    have := h.simple
    rw [h.nodes_eq, nodup_cons] at this
    exact this.2
  rw [h.links_eq]
  rw [List.Nodup, pairwise_map] at htargets ⊢
  refine htargets.imp_of_mem fun {a b} ha hb hne hid => hne ?_
  rw [inj_on_of_nodup_map hvalid.link_nodup (h.mem_links a ha) (h.mem_links b hb) hid]

theorem Realizes.disjoint (hex : Excludes snapshot nodeDisjoint other options) :
    Disjoint nodeDisjoint other path := by
  have hkey : ∀ hop ∈ Policy.hops path, edgeKey hop.1 hop.2 ∉ primaryEdges other := by
    intro hop hhop hmem
    rw [h.hops] at hhop
    obtain ⟨link, hlink, rfl⟩ := mem_map.mp hhop
    exact (h.admitted link hlink).not_excluded (hex.edges link (h.mem_links link hlink) hmem)
  refine ⟨fun id hid hmem => ?_, fun hop hhop => ⟨fun hmem => ?_, fun hmem => ?_⟩,
    fun group hgroup hmem => ?_, fun hnd node hnode hmem => ?_⟩
  · rw [h.links_eq] at hmem
    obtain ⟨link, hlink, rfl⟩ := mem_map.mp hmem
    exact (h.admitted link hlink).not_excluded (hex.links _ hid)
  · exact hkey hop hmem (mem_flatMap.mpr ⟨hop, hhop, mem_cons_self⟩)
  · exact hkey _ hmem (mem_flatMap.mpr ⟨hop, hhop, mem_cons_of_mem _ mem_cons_self⟩)
  · obtain ⟨link, hlink, hg⟩ := (h.mem_groups group).mp hmem
    exact (h.admitted link hlink).groups group hg (hex.groups group hgroup)
  · obtain ⟨link, hlink, rfl⟩ := h.interior hmem
    obtain ⟨_, -, -, hnot⟩ := enabled_iff.mp (h.admitted link hlink).target
    exact hnot (hex.interior hnd _ hnode)

end Disjoint

end StarFabric.Policy

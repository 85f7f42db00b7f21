import StarFabric.Go.Netip

/-!
# Topology: nodes, links, snapshots and events

The data model of `internal/model/model.go` that describes the network. A link
is directed; a bidirectional physical link is two `Link` values.

`TopologySnapshot.validate` is the code's own check, with its error texts.
`TopologySnapshot.Valid` states what it accepts, and
`TopologySnapshot.validate_eq_ok_iff` says that the two agree.
-/

namespace StarFabric

open Go List

structure Node where
  id : String
  loopback : String := ""
  labels : List (String × String) := []
  enabled : Bool := false
  deriving DecidableEq, Repr, Inhabited

namespace Node

def label (n : Node) (key : String) : String := (n.labels.lookup key).getD ""

/-- `livePairNextHop`: the address of the far end of a pair in the stable /30
pool, from three labels of each node. -/
def livePairNextHop (n peer : Node) : Except String String :=
  let bad := "invalid live pair address binding " ++ n.id ++ " -> " ++ peer.id
  match atoi (n.label "next_hop_nodes"), atoi (n.label "next_hop_index"),
      atoi (peer.label "next_hop_index") with
  | some count, some left, some right =>
    if count < 2 ∨ 255 < count ∨ left < 0 ∨ count ≤ left ∨ right < 0 ∨ count ≤ right ∨
        left = right ∨ peer.label "next_hop_scheme" ≠ "live-pair-v1" ∨
        peer.label "next_hop_nodes" ≠ n.label "next_hop_nodes" then .error bad
    else
      let (low, high, host) : ℤ × ℤ × ℤ :=
        if right < left then (right, left, 1) else (left, right, 2)
      let pair := low * (2 * count - low - 1) / 2 + high - low
      let address := (0x0a800000 + 4 * pair + host).toNat % 2 ^ 32
      .ok (dotted [address / 2 ^ 24, address / 2 ^ 16 % 256, address / 2 ^ 8 % 256, address % 256])
  | _, _, _ => .error bad

/-- `NextHopAddress`: an explicitly bound adjacent interface, the live pair
scheme, or the loopback of the peer. -/
def nextHopAddress (n peer : Node) : Except String String :=
  match n.labels.lookup ("next_hop:" ++ peer.id) with
  | some address => checked address
  | none =>
    if n.label "next_hop_scheme" = "live-pair-v1" then n.livePairNextHop peer
    else checked peer.loopback
where
  /-- The address, provided that it parses. -/
  checked (address : String) : Except String String :=
    match parseAddr address with
    | .error e =>
      .error ("invalid next-hop address " ++ n.id ++ " -> " ++ peer.id ++ ": " ++ e)
    | .ok _ => .ok address

end Node

structure Link where
  id : String
  source : String
  target : String
  acquisitionState : String := ""
  adminUp : Bool := false
  operationalUp : Bool := false
  latencyUS : Int64 := 0
  capacityBPS : Int64 := 0
  lossPPM : Int64 := 0
  reliabilityPPM : Int64 := 0
  riskGroups : List String := []
  telemetryAt : Time := 0
  validUntil : Time := 0
  availabilityEnd : Time := 0
  deriving DecidableEq, Repr, Inhabited

/-- `Link.Usable` at an instant, with the oldest telemetry to accept (`0` for any
age). -/
def Link.usable (l : Link) (at_ : Time) (maxTelemetryAge : Duration) : Bool :=
  if !l.adminUp || !l.operationalUp || l.capacityBPS ≤ 0 || l.latencyUS < 0 then false
  else if l.acquisitionState ≠ "" && l.acquisitionState ≠ "locked" &&
      l.acquisitionState ≠ "degraded" then false
  else if !l.validUntil.isZero && !(at_ < l.validUntil) then false
  else if !l.availabilityEnd.isZero && !(at_ < l.availabilityEnd) then false
  else if 0 < maxTelemetryAge && !l.telemetryAt.isZero &&
      maxTelemetryAge < at_.sub l.telemetryAt then false
  else true

/-- What `Link.usable` asks for. -/
structure Link.Usable (l : Link) (at_ : Time) (maxTelemetryAge : Duration) : Prop where
  up : l.adminUp = true ∧ l.operationalUp = true
  capacity : 0 < l.capacityBPS
  latency : 0 ≤ l.latencyUS
  acquisition : l.acquisitionState = "" ∨ l.acquisitionState = "locked" ∨
    l.acquisitionState = "degraded"
  validUntil : l.validUntil = 0 ∨ at_ < l.validUntil
  availabilityEnd : l.availabilityEnd = 0 ∨ at_ < l.availabilityEnd
  telemetry : 0 < maxTelemetryAge → l.telemetryAt ≠ 0 → at_.sub l.telemetryAt ≤ maxTelemetryAge

theorem Link.usable_iff {l : Link} {at_ : Time} {maxTelemetryAge : Duration} :
    l.usable at_ maxTelemetryAge = true ↔ l.Usable at_ maxTelemetryAge := by
  unfold Link.usable Time.isZero
  constructor
  · intro h
    split_ifs at h with h₁ h₂ h₃ h₄ h₅
    simp only [Bool.or_eq_true, Bool.not_eq_true', decide_eq_true_eq, not_or, Bool.and_eq_true,
      Bool.not_eq_false, not_le, not_lt, not_and, beq_eq_false_iff_ne, not_not,
      decide_eq_false_iff_not] at h₁ h₂ h₃ h₄ h₅
    refine ⟨h₁.1.1, h₁.1.2, h₁.2, ?_, or_iff_not_imp_left.mpr h₃, or_iff_not_imp_left.mpr h₄,
      fun hage htel => h₅ ⟨hage, htel⟩⟩
    exact or_iff_not_imp_left.mpr fun hne => or_iff_not_imp_left.mpr fun hne' => h₂ ⟨hne, hne'⟩
  · rintro ⟨⟨hadmin, hop⟩, hcap, hlat, hacq, hvalid, havail, htel⟩
    rw [if_neg (by simp [hadmin, hop, hcap, hlat]),
      if_neg (by rcases hacq with h | h | h <;> simp [h]),
      if_neg (by rcases hvalid with h | h <;> simp [h]),
      if_neg (by rcases havail with h | h <;> simp [h]), if_neg (by simpa using htel)]

structure TopologySnapshot where
  version : UInt64
  generatedAt : Time := 0
  validFrom : Time := 0
  validUntil : Time := 0
  nodes : List Node
  links : List Link
  deriving DecidableEq, Repr, Inhabited

namespace TopologySnapshot

/-! ### Validation -/

/-- The node loop of `Validate`, with the ids seen so far. -/
def checkNodes (ids : List String) : List Node → Except String (List String)
  | [] => .ok ids
  | node :: rest =>
    if node.id = "" then .error "node id is required"
    else if node.id ∈ ids then .error ("duplicate node " ++ quote node.id)
    else checkNodes (node.id :: ids) rest

/-- The risk-group loop of `Validate` for one link. -/
def checkRiskGroups (linkID : String) (seen : List String) : List String → Except String Unit
  | [] => .ok ()
  | group :: rest =>
    if group = "" then .error ("link " ++ quote linkID ++ " contains an empty risk group")
    else if group ∈ seen then
      .error ("link " ++ quote linkID ++ " contains duplicate risk group " ++ quote group)
    else checkRiskGroups linkID (group :: seen) rest

/-- The link loop of `Validate`, with the node ids and the link ids seen so far. -/
def checkLinks (ids : List String) (linkIDs : List String) : List Link → Except String Unit
  | [] => .ok ()
  | link :: rest =>
    if link.id = "" ∨ link.source = "" ∨ link.target = "" then
      .error "link id, source, and target are required"
    else if link.source = link.target then
      .error ("link " ++ quote link.id ++ " is a self-loop")
    else if link.source ∉ ids then
      .error ("link " ++ quote link.id ++ " references unknown source " ++ quote link.source)
    else if link.target ∉ ids then
      .error ("link " ++ quote link.id ++ " references unknown target " ++ quote link.target)
    else if link.id ∈ linkIDs then .error ("duplicate link " ++ quote link.id)
    else match checkRiskGroups link.id [] link.riskGroups with
      | .error e => .error e
      | .ok () => checkLinks ids (link.id :: linkIDs) rest

def validate (s : TopologySnapshot) : Except String Unit :=
  if s.version = 0 then .error "topology version must be greater than zero"
  else match checkNodes [] s.nodes with
    | .error e => .error e
    | .ok ids => checkLinks ids [] s.links

structure Valid (s : TopologySnapshot) : Prop where
  version_ne : s.version ≠ 0
  node_id : ∀ n ∈ s.nodes, n.id ≠ ""
  node_nodup : (s.nodes.map Node.id).Nodup
  link_text : ∀ l ∈ s.links, l.id ≠ "" ∧ l.source ≠ "" ∧ l.target ≠ ""
  link_ends : ∀ l ∈ s.links, l.source ≠ l.target
  link_source : ∀ l ∈ s.links, l.source ∈ s.nodes.map Node.id
  link_target : ∀ l ∈ s.links, l.target ∈ s.nodes.map Node.id
  link_nodup : (s.links.map Link.id).Nodup
  groups : ∀ l ∈ s.links, "" ∉ l.riskGroups ∧ l.riskGroups.Nodup

theorem checkNodes_eq_ok_iff {ids out : List String} {nodes : List Node} :
    checkNodes ids nodes = .ok out ↔
      (∀ n ∈ nodes, n.id ≠ "" ∧ n.id ∉ ids) ∧ (nodes.map Node.id).Nodup ∧
        out = (nodes.map Node.id).reverse ++ ids := by
  induction nodes generalizing ids with
  | nil =>
    simp only [checkNodes, not_mem_nil, false_implies, implies_true, map_nil,
      nodup_nil, reverse_nil, nil_append, true_and, Except.ok.injEq]
    exact eq_comm
  | cons node rest ih =>
    unfold checkNodes
    by_cases hempty : node.id = ""
    · simp [hempty]
    by_cases hseen : node.id ∈ ids
    · simp [hempty, hseen]
    rw [if_neg hempty, if_neg hseen, ih, ← and_assoc, ← and_assoc,
      unseen_cons_iff (P := fun n : Node => n.id ≠ "") hempty hseen]
    simp only [map_cons, reverse_cons, append_assoc, singleton_append]

theorem checkRiskGroups_eq_ok_iff {linkID : String} {seen groups : List String} :
    checkRiskGroups linkID seen groups = .ok () ↔
      "" ∉ groups ∧ groups.Nodup ∧ ∀ g ∈ groups, g ∉ seen := by
  induction groups generalizing seen with
  | nil => simp [checkRiskGroups]
  | cons group rest ih =>
    unfold checkRiskGroups
    by_cases hempty : group = ""
    · simp [hempty]
    by_cases hseen : group ∈ seen
    · simp [hempty, hseen]
    rw [if_neg hempty, if_neg hseen, ih, forall_mem_cons]
    simp only [mem_cons, not_or, nodup_cons]
    constructor
    · rintro ⟨hne, hnd, hall⟩
      exact ⟨⟨Ne.symm hempty, hne⟩, ⟨fun hg => (hall group hg).1 rfl, hnd⟩, hseen,
        fun g hg => (hall g hg).2⟩
    · rintro ⟨⟨_, hne⟩, ⟨hnew, hnd⟩, _, hall⟩
      exact ⟨hne, hnd, fun g hg => ⟨fun hgg => hnew (hgg ▸ hg), hall g hg⟩⟩

structure LinkValid (ids : List String) (l : Link) : Prop where
  text : l.id ≠ "" ∧ l.source ≠ "" ∧ l.target ≠ ""
  ends : l.source ≠ l.target
  source : l.source ∈ ids
  target : l.target ∈ ids
  groups : "" ∉ l.riskGroups ∧ l.riskGroups.Nodup

theorem checkLinks_eq_ok_iff {ids linkIDs : List String} {links : List Link} :
    checkLinks ids linkIDs links = .ok () ↔
      (∀ l ∈ links, LinkValid ids l ∧ l.id ∉ linkIDs) ∧ (links.map Link.id).Nodup := by
  induction links generalizing linkIDs with
  | nil => simp [checkLinks]
  | cons link rest ih =>
    unfold checkLinks
    -- what the statement says about this link, for the ways in which the check rejects it
    have hhead : ∀ {P : Link → Prop}, (∀ l ∈ link :: rest, P l) → P link :=
      fun h => h link mem_cons_self
    by_cases htext : link.id = "" ∨ link.source = "" ∨ link.target = ""
    · rw [if_pos htext]
      refine iff_of_false nofun fun h => ?_
      have := (hhead h.1).1.text
      tauto
    rw [if_neg htext]
    by_cases hends : link.source = link.target
    · rw [if_pos hends]
      exact iff_of_false nofun fun h => (hhead h.1).1.ends hends
    rw [if_neg hends]
    by_cases hsource : link.source ∈ ids
    swap
    · rw [if_pos hsource]
      exact iff_of_false nofun fun h => hsource (hhead h.1).1.source
    rw [if_neg (not_not.mpr hsource)]
    by_cases htarget : link.target ∈ ids
    swap
    · rw [if_pos htarget]
      exact iff_of_false nofun fun h => htarget (hhead h.1).1.target
    rw [if_neg (not_not.mpr htarget)]
    by_cases hseen : link.id ∈ linkIDs
    · rw [if_pos hseen]
      exact iff_of_false nofun fun h => (hhead h.1).2 hseen
    rw [if_neg hseen]
    cases hgroups : checkRiskGroups link.id [] link.riskGroups with
    | error e =>
      refine iff_of_false nofun fun h => ?_
      have hlink := (hhead h.1).1
      rw [checkRiskGroups_eq_ok_iff.mpr ⟨hlink.groups.1, hlink.groups.2, by simp⟩] at hgroups
      cases hgroups
    | ok u =>
      obtain ⟨hne, hnd, -⟩ := checkRiskGroups_eq_ok_iff.mp hgroups
      have hlink : LinkValid ids link :=
        ⟨by tauto, hends, hsource, htarget, hne, hnd⟩
      change checkLinks ids (link.id :: linkIDs) rest = .ok () ↔ _
      rw [ih]
      exact unseen_cons_iff hlink hseen

theorem validate_eq_ok_iff {s : TopologySnapshot} : s.validate = .ok () ↔ s.Valid := by
  unfold validate
  by_cases hversion : s.version = 0
  · rw [if_pos hversion]
    exact iff_of_false (by simp) fun h => h.version_ne hversion
  rw [if_neg hversion]
  cases hnodes : checkNodes [] s.nodes with
  | error e =>
    refine iff_of_false (by simp) fun h => ?_
    have hok : checkNodes [] s.nodes = .ok ((s.nodes.map Node.id).reverse ++ []) :=
      checkNodes_eq_ok_iff.mpr ⟨fun n hn => ⟨h.node_id n hn, by simp⟩, h.node_nodup, rfl⟩
    rw [hnodes] at hok
    cases hok
  | ok ids =>
    obtain ⟨hids, hnodup, rfl⟩ := checkNodes_eq_ok_iff.mp hnodes
    change checkLinks _ [] s.links = .ok () ↔ _
    rw [checkLinks_eq_ok_iff]
    simp only [append_nil, not_mem_nil, not_false_eq_true, and_true]
    constructor
    · rintro ⟨hlinks, hlinkNodup⟩
      exact ⟨hversion, fun n hn => (hids n hn).1, hnodup, fun l hl => (hlinks l hl).text,
        fun l hl => (hlinks l hl).ends, fun l hl => by simpa using (hlinks l hl).source,
        fun l hl => by simpa using (hlinks l hl).target, hlinkNodup,
        fun l hl => (hlinks l hl).groups⟩
    · intro h
      exact ⟨fun l hl => ⟨h.link_text l hl, h.link_ends l hl,
        by simpa using h.link_source l hl, by simpa using h.link_target l hl,
        h.groups l hl⟩, h.link_nodup⟩

/-- The map from ids to nodes that the planner, the path search and the validator build. -/
def nodeMap (s : TopologySnapshot) : Map Node := mapBy Node.id s.nodes

def linkMap (s : TopologySnapshot) : Map Link := mapBy Link.id s.links

end TopologySnapshot

/-- The text of an adjacency, a map key of the path search and of the validator. -/
def edgeKey (source target : String) : String := source ++ "\x00" ++ target

/-! ### Events -/

/-- The type of a topology event. Any other text is unsupported. -/
inductive EventType where
  | linkUp
  | linkDown
  | linkUpdate
  | nodeUp
  | nodeDown
  | other (name : String)
  deriving DecidableEq, Repr, Inhabited

def EventType.IsLink : EventType → Prop
  | linkUp | linkDown | linkUpdate => True
  | _ => False

def EventType.IsNode : EventType → Prop
  | nodeUp | nodeDown => True
  | _ => False

structure TopologyEvent where
  eventID : String
  subject : String
  sequence : UInt64
  type : EventType
  observedAt : Time := 0
  effectiveAt : Time := 0
  link : Option Link := none
  node : Option Node := none
  deriving DecidableEq, Repr, Inhabited

end StarFabric

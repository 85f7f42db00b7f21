import StarFabric.Evpn.Speaker

/-!
# The catalog of workloads

`lab/live/workload_model.py`: the flows that a validated configuration asks for, each with two
directions that never share a route (`catalog_wellFormed`). The checks of rates, sizes and intervals
are left out: they only refuse a configuration, and the steering does not read these values.
-/

namespace StarFabric.Workloads

open ExceptFold List

inductive Kind where
  | value
  | runtime
  | os
  | key
  | index
  | type
  | other
  deriving DecidableEq, Repr

structure Error where
  kind : Kind
  text : String
  deriving DecidableEq, Repr

abbrev raise {α : Type} (text : String) : Except Error α := .error ⟨.value, text⟩

abbrev Node := String

inductive Carrier where
  | ospf
  | ospf6
  | native
  | ldp
  | srMpls
  | pcep
  | srv6
  | evpn
  | evpnSrv6
  deriving DecidableEq, Repr

inductive Control where
  | distributed
  | centralized
  | hybrid
  deriving DecidableEq, Repr

def controls : Carrier → Control
  | .ospf | .ospf6 => .distributed
  | .native => .centralized
  | .ldp | .srMpls | .pcep | .srv6 | .evpn | .evpnSrv6 => .hybrid

structure Profile where
  id : String
  carrier : Carrier
  control : Control
  deriving DecidableEq, Repr

inductive Pairing where
  | ring
  | balancedMesh
  deriving DecidableEq, Repr

structure Config where
  enabled : Bool
  copies : ℕ
  pairing : Pairing
  profiles : List Profile

structure Flow where
  id : String
  number : ℕ
  carrier : Carrier
  control : Control
  source : Node
  destination : Node
  sourceAddress : String
  destinationAddress : String
  family : ℕ
  prefixLength : ℕ
  table : ℕ
  bindingSid : ℕ
  pcepColor : ℕ
  deriving DecidableEq, Repr

structure Direction where
  id : String
  node : Node
  remote : Node
  source : String
  target : String
  deriving DecidableEq, Repr

/-! ### Texts -/

def twoDigits (n : ℕ) : String := if n < 10 then "0" ++ toString n else toString n

def dotted (n : ℕ) : String :=
  toString (n / 2 ^ 24) ++ "." ++ toString (n / 2 ^ 16 % 256) ++ "." ++
    toString (n / 2 ^ 8 % 256) ++ "." ++ toString (n % 256)

/-- `198.18.0.0 + offset`, or `fd42:5354:: + offset`. -/
def endpoint (ipv6 : Bool) (offset : ℕ) : String :=
  if ipv6 then
    String.ofList (Evpn.text ⟨Wire.toOctets 16 (0xfd42 * 2 ^ 112 + 0x5354 * 2 ^ 96 + offset),
      Wire.length_toOctets 16 _⟩)
  else dotted (198 * 2 ^ 24 + 18 * 2 ^ 16 + offset)

def validId (id : String) : Bool :=
  match id.toList with
  | [] => false
  | c :: rest => c.isLower && rest.length ≤ 23 &&
    rest.all fun c => c.isLower || c.isDigit || c == '-'

/-! ### Flows -/

def flow (config : Config) (gateways : List Node) (profile : Profile)
    (profileIndex index number : ℕ) : Flow :=
  let count := gateways.length
  let total := config.profiles.length * config.copies
  let (sourceIndex, offset) := match config.pairing with
    | .ring => (index, 1)
    | .balancedMesh =>
      let rounds := (config.copies + count - 1) / count
      let offset := 1 + (profileIndex * rounds + index / count) % (count - 1)
      (index + profileIndex * config.copies, if total < count then total else offset)
  let ipv6 : Bool := profile.carrier = .ospf6
  { id := profile.id ++ "-" ++ twoDigits (index + 1)
    number := number
    carrier := profile.carrier
    control := profile.control
    source := gateways.getD (sourceIndex % count) ""
    destination := gateways.getD ((sourceIndex + offset) % count) ""
    sourceAddress := endpoint ipv6 (2 * number)
    destinationAddress := endpoint ipv6 (2 * number + 1)
    family := if ipv6 then 6 else 4
    prefixLength := if ipv6 then 128 else 32
    table := 10000 + number
    bindingSid := 30000 + number
    pcepColor := 10000 + number }

/-- One round of the loop over profiles, with the flows and the profile ids so far. -/
def addProfile (config : Config) (gateways : List Node) (acc : List Flow × List String)
    (x : Profile × ℕ) : Except Error (List Flow × List String) :=
  let (flows, ids) := acc
  let (profile, profileIndex) := x
  if validId profile.id = false ∨ profile.id ∈ ids then
    raise "workload profile ids must be unique short names"
  else if profile.control ≠ controls profile.carrier then
    raise ("carrier/control mismatch for " ++ profile.id)
  else
    .ok (flows ++ (List.range config.copies).map fun index =>
      flow config gateways profile profileIndex index (flows.length + index + 1), profile.id :: ids)

def catalog (config : Config) (gateways : List Node) : Except Error (List Flow) :=
  if config.enabled = false then .ok []
  else if gateways.length < 2 then raise "workloads require at least two gateways"
  else if ¬ (1 ≤ config.copies ∧ config.copies ≤ 64) then raise "copies_per_profile must be 1..64"
  else if ¬ gateways.Nodup then raise "gateway ids must be unique"
  else if ¬ (1 ≤ config.profiles.length ∧ config.profiles.length ≤ 16) then
    raise "supply 1..16 workload profiles"
  else do
    let (flows, _) ← config.profiles.zipIdx.foldlM (addProfile config gateways) ([], [])
    return flows

def directions (flow : Flow) : List Direction :=
  [⟨flow.id ++ "-forward", flow.source, flow.destination, flow.sourceAddress,
      flow.destinationAddress⟩,
    ⟨flow.id ++ "-reverse", flow.destination, flow.source, flow.destinationAddress,
      flow.sourceAddress⟩]

def allDirections (flows : List Flow) : List (Flow × Direction) :=
  flows.flatMap fun flow => (directions flow).map fun d => (flow, d)

/-! ### Directions do not share a route -/

/-- What the steering needs of the flows. The table 300 is that of the N3 service. -/
structure WellFormed (flows : List Flow) : Prop where
  ids : (flows.map Flow.id).Nodup
  tables : (flows.map Flow.table).Nodup
  addresses : ∀ flow ∈ flows, flow.control ≠ .distributed →
    flow.sourceAddress ≠ flow.destinationAddress
  table_ne : ∀ flow ∈ flows, flow.table ≠ 300
  control : ∀ flow ∈ flows, flow.control = controls flow.carrier

section WellFormed

variable {config : Config} {gateways : List Node}

theorem length_twoDigits : ∀ n < 65, (twoDigits n).toList.length = 2 := by decide +kernel

theorem twoDigits_injective : ∀ m < 65, ∀ n < 65, twoDigits m = twoDigits n → m = n := by
  decide +kernel

theorem flowId_injective {a b : String} {m n : ℕ} (hm : m < 65) (hn : n < 65)
    (h : a ++ "-" ++ twoDigits m = b ++ "-" ++ twoDigits n) : a = b ∧ m = n := by
  have hlist : (a ++ "-").toList ++ (twoDigits m).toList =
      (b ++ "-").toList ++ (twoDigits n).toList := by
    rw [← String.toList_append, ← String.toList_append, h]
  obtain ⟨hname, hdigits⟩ := append_inj' hlist
    ((length_twoDigits m hm).trans (length_twoDigits n hn).symm)
  exact ⟨(String.append_left_inj _).mp (String.toList_inj.mp hname),
    twoDigits_injective m hm n hn (String.toList_inj.mp hdigits)⟩

theorem endpoint_ne (number : ℕ) :
    endpoint false (2 * number) ≠ endpoint false (2 * number + 1) := by
  intro h
  change dotted (198 * 2 ^ 24 + 18 * 2 ^ 16 + 2 * number) =
    dotted (198 * 2 ^ 24 + 18 * 2 ^ 16 + (2 * number + 1)) at h
  generalize hbase : 198 * 2 ^ 24 + 18 * 2 ^ 16 + 2 * number = n at h
  have hsucc : 198 * 2 ^ 24 + 18 * 2 ^ 16 + (2 * number + 1) = n + 1 := by omega
  rw [hsucc] at h
  unfold dotted at h
  -- an even number and its successor have the same upper octets
  rw [show (n + 1) / 2 ^ 24 = n / 2 ^ 24 by omega, show (n + 1) / 2 ^ 16 = n / 2 ^ 16 by omega,
    show (n + 1) / 2 ^ 8 = n / 2 ^ 8 by omega] at h
  have hlast := Wire.toString_injective ((String.append_right_inj _).mp h)
  omega

/-- What holds of the flows and the profile ids so far. -/
structure Collected (config : Config) (acc : List Flow × List String) : Prop where
  numbers : acc.1.map Flow.number = (List.range acc.1.length).map (· + 1)
  origin : ∀ flow ∈ acc.1, ∃ name ∈ acc.2, ∃ index < config.copies,
    flow.id = name ++ "-" ++ twoDigits (index + 1)
  ids : (acc.1.map Flow.id).Nodup
  table : ∀ flow ∈ acc.1, flow.table = 10000 + flow.number
  addresses : ∀ flow ∈ acc.1, flow.control ≠ .distributed →
    flow.sourceAddress ≠ flow.destinationAddress
  control : ∀ flow ∈ acc.1, flow.control = controls flow.carrier

theorem Collected.addProfile (hcopies : config.copies ≤ 64) {acc acc' : List Flow × List String}
    (h : Collected config acc) {x : Profile × ℕ}
    (hadd : addProfile config gateways acc x = .ok acc') : Collected config acc' := by
  obtain ⟨flows, ids⟩ := acc
  obtain ⟨profile, profileIndex⟩ := x
  unfold Workloads.addProfile at hadd
  dsimp only at hadd
  split_ifs at hadd with hid hcontrol
  cases hadd
  have hfresh : profile.id ∉ ids := fun hmem => hid (.inr hmem)
  refine ⟨?_, fun flow hflow => ?_, ?_, fun flow hflow => ?_, fun flow hflow hsteered => ?_,
    fun flow hflow => ?_⟩
  · rw [length_append, length_map, length_range, map_append, h.numbers,
      range_add, map_append, map_map, map_map]
    rfl
  · obtain hflow | hflow := mem_append.mp hflow
    · obtain ⟨name, hname, index, hindex, hflowId⟩ := h.origin flow hflow
      exact ⟨name, mem_cons_of_mem _ hname, index, hindex, hflowId⟩
    · obtain ⟨index, hindex, rfl⟩ := mem_map.mp hflow
      exact ⟨profile.id, mem_cons_self, index, mem_range.mp hindex, rfl⟩
  · rw [map_append, map_map]
    refine List.Nodup.append h.ids ?_ ?_
    · -- the copies of one profile
      refine List.Nodup.map_on (fun m hm n hn heq => ?_) nodup_range
      have hm := mem_range.mp hm
      have hn := mem_range.mp hn
      have hindex := (flowId_injective (show m + 1 < 65 by omega) (show n + 1 < 65 by omega) heq).2
      omega
    · -- against those of earlier profiles
      intro id hid hid'
      obtain ⟨flow, hflow, rfl⟩ := mem_map.mp hid
      obtain ⟨index, hindex, heq⟩ := mem_map.mp hid'
      obtain ⟨name, hname, index', hindex', hflowId⟩ := h.origin flow hflow
      have hindex := mem_range.mp hindex
      have hsame := (flowId_injective (show index + 1 < 65 by omega)
        (show index' + 1 < 65 by omega) (heq.trans hflowId)).1
      exact hfresh (hsame ▸ hname)
  · obtain hflow | hflow := mem_append.mp hflow
    · exact h.table flow hflow
    · obtain ⟨index, -, rfl⟩ := mem_map.mp hflow
      rfl
  · obtain hflow | hflow := mem_append.mp hflow
    · exact h.addresses flow hflow hsteered
    · obtain ⟨index, -, rfl⟩ := mem_map.mp hflow
      -- IPv6 endpoints belong to a distributed carrier
      have hcarrier : profile.carrier ≠ .ospf6 := by
        intro hospf6
        refine hsteered ?_
        show profile.control = .distributed
        rw [not_not.mp hcontrol, hospf6]
        rfl
      show endpoint (decide (profile.carrier = .ospf6)) _ ≠
        endpoint (decide (profile.carrier = .ospf6)) _
      rw [decide_eq_false hcarrier]
      exact endpoint_ne _
  · obtain hflow | hflow := mem_append.mp hflow
    · exact h.control flow hflow
    · obtain ⟨index, -, rfl⟩ := mem_map.mp hflow
      exact not_not.mp hcontrol

theorem catalog_wellFormed {flows : List Flow} (h : catalog config gateways = .ok flows) :
    WellFormed flows := by
  unfold catalog at h
  split_ifs at h with hdisabled hgateways hcopies hunique hprofiles
  · cases h
    exact ⟨nodup_nil, nodup_nil, nofun,
      nofun,
      nofun⟩
  · obtain ⟨⟨collected, ids⟩, hfold, h⟩ := bind_eq_ok.mp h
    change Except.ok collected = Except.ok flows at h
    have hstart : Collected config ([], []) :=
      ⟨rfl, nofun, nodup_nil,
        nofun,
        nofun,
        nofun⟩
    have hcollected : Collected config (collected, ids) :=
      foldlM_history (P := fun _ acc => Collected config acc)
        (fun _ x acc acc' hacc hadd => hacc.addProfile hcopies.2 hadd) [] hstart hfold
    cases h
    have htables : flows.map Flow.table = (flows.map Flow.number).map (10000 + ·) := by
      rw [map_map]
      exact map_congr_left hcollected.table
    refine ⟨hcollected.ids, ?_, hcollected.addresses, fun flow hflow => ?_, hcollected.control⟩
    · have hnumbers : flows.map Flow.number = (List.range flows.length).map (· + 1) :=
        hcollected.numbers
      rw [htables, hnumbers]
      refine List.Nodup.map (fun m n heq => ?_) (List.Nodup.map (fun m n heq => ?_) nodup_range)
      · exact Nat.add_left_cancel heq
      · exact Nat.succ.inj heq
    · rw [hcollected.table flow hflow]
      omega

end WellFormed

section Directions

variable {flows : List Flow} {x y : Flow × Direction}

theorem mem_allDirections : x ∈ allDirections flows ↔ x.1 ∈ flows ∧ x.2 ∈ directions x.1 := by
  unfold allDirections
  rw [mem_flatMap]
  constructor
  · rintro ⟨flow, hflow, hx⟩
    obtain ⟨d, hd, rfl⟩ := mem_map.mp hx
    exact ⟨hflow, hd⟩
  · rintro ⟨hflow, hd⟩
    exact ⟨x.1, hflow, mem_map.mpr ⟨x.2, hd, rfl⟩⟩

theorem flowId_of_directionId {f g : Flow} {d e : Direction} (hd : d ∈ directions f)
    (he : e ∈ directions g) (h : d.id = e.id) : f.id = g.id ∧ (f = g → d = e) := by
  have hsplit : ∀ {a b : String} (s t : String), s.toList.length = t.toList.length →
      a ++ s = b ++ t → a = b ∧ s = t := by
    intro a b s t hlength heq
    have hlist : a.toList ++ s.toList = b.toList ++ t.toList := by
      rw [← String.toList_append, ← String.toList_append, heq]
    obtain ⟨ha, hs⟩ := append_inj' hlist hlength
    exact ⟨String.toList_inj.mp ha, String.toList_inj.mp hs⟩
  obtain rfl | rfl := mem_pair.mp hd
  · obtain rfl | rfl := mem_pair.mp he
    · exact ⟨(hsplit "-forward" "-forward" rfl h).1, fun heq => by rw [heq]⟩
    · exact absurd (hsplit "-forward" "-reverse" (by decide) h).2 (by decide)
  · obtain rfl | rfl := mem_pair.mp he
    · exact absurd (hsplit "-reverse" "-forward" (by decide) h).2 (by decide)
    · exact ⟨(hsplit "-reverse" "-reverse" rfl h).1, fun heq => by rw [heq]⟩

theorem WellFormed.direction_injective (h : WellFormed flows) (hx : x ∈ allDirections flows)
    (hy : y ∈ allDirections flows) (hid : x.2.id = y.2.id) : x = y := by
  obtain ⟨hxf, hxd⟩ := mem_allDirections.mp hx
  obtain ⟨hyf, hyd⟩ := mem_allDirections.mp hy
  obtain ⟨hflow, hdirection⟩ := flowId_of_directionId hxd hyd hid
  have hsame : x.1 = y.1 := inj_on_of_nodup_map h.ids hxf hyf hflow
  exact Prod.ext hsame (hdirection hsame)

theorem WellFormed.slot_injective (h : WellFormed flows) (hx : x ∈ allDirections flows)
    (hy : y ∈ allDirections flows) (hsteered : x.1.control ≠ .distributed)
    (htable : x.1.table = y.1.table) (htarget : x.2.target = y.2.target) : x = y := by
  obtain ⟨hxf, hxd⟩ := mem_allDirections.mp hx
  obtain ⟨hyf, hyd⟩ := mem_allDirections.mp hy
  have hsame : x.1 = y.1 := inj_on_of_nodup_map h.tables hxf hyf htable
  obtain ⟨flow, d⟩ := x
  obtain ⟨flow', e⟩ := y
  subst hsame
  have hne := h.addresses flow hxf hsteered
  dsimp only at hxd hyd htarget
  obtain rfl | rfl := mem_pair.mp hxd
  · obtain rfl | rfl := mem_pair.mp hyd
    · rfl
    · exact absurd htarget hne.symm
  · obtain rfl | rfl := mem_pair.mp hyd
    · exact absurd htarget hne
    · rfl

theorem WellFormed.nodup_allDirections (h : WellFormed flows) : (allDirections flows).Nodup := by
  refine nodup_flatMap.mpr ⟨fun flow _ => ?_, ?_⟩
  · refine List.Nodup.map (fun d e heq => congrArg Prod.snd heq) ?_
    refine nodup_cons.mpr ⟨fun hmem => ?_, nodup_singleton _⟩
    have hid := congrArg Direction.id (mem_singleton.mp hmem)
    exact absurd ((String.append_right_inj _).mp hid) (by decide)
  · refine (h.ids.of_map Flow.id).imp fun hne x hx hy => ?_
    obtain ⟨d, -, rfl⟩ := mem_map.mp hx
    obtain ⟨e, -, heq⟩ := mem_map.mp hy
    exact hne (congrArg Prod.fst heq).symm

end Directions

end StarFabric.Workloads

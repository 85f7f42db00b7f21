import StarFabric.App.IntentsFile
import StarFabric.Planner.Priority

/-!
# gRPC messages

The conversions of `internal/api/grpc.go` for nodes, links and intents. A link comes back as it was
exactly when its times are in the years 1 to 9999, and an intent exactly when its priority fits in
32 bits. `LinkRecord` and `NodeRecord` have the fields of the source that no other modelled function
reads. A floating-point number is carried over by its bits.
-/

namespace StarFabric.Api

open Go ExceptFold List

/-! ### Messages -/

structure LinkRecord extends Link where
  linkType : String := ""
  rangeKM : UInt64 := 0
  dopplerHz : UInt64 := 0
  deriving DecidableEq

structure NodeRecord extends Node where
  kind : String := ""
  deriving DecidableEq

/-- `timestamppb.Timestamp`. -/
structure Timestamp where
  seconds : Int64
  nanos : Int32
  deriving DecidableEq

structure NodeMessage where
  id : String
  kind : String
  loopback : String
  labels : List (String × String)
  enabled : Bool

structure LinkMessage where
  id : String
  source : String
  target : String
  adminUp : Bool
  operationalUp : Bool
  latencyUs : Int64
  capacityBps : Int64
  lossPpm : Int64
  reliabilityPpm : Int64
  telemetryAt : Option Timestamp
  validUntil : Option Timestamp
  availabilityEnd : Option Timestamp
  riskGroups : List String
  linkType : String
  acquisitionState : String
  rangeKm : UInt64
  dopplerHz : UInt64

structure IntentMessage where
  id : String
  source : String
  destination : String
  destinationPrefix : String
  policy : String
  maxLatencyUs : Int64
  minCapacityBps : Int64
  maxLossPpm : Int64
  requiredReliabilityPpm : Int64
  redundancy : UInt32
  trafficClass : String
  priority : Int32
  labels : List (String × String)
  demandBps : Int64
  gatewayCandidates : List String

/-! ### Timestamps -/

/-- The seconds from the beginning of the year 1 to the beginning of 1970. -/
def unixEpoch : ℤ := 62135596800

/-- The seconds from the beginning of 1970 to the last one of the year 9999. -/
def maxTimestamp : ℤ := 253402300799

def Timestamp.new (t : Time) : Timestamp where
  seconds := Int64.ofInt (t / 1000000000 - unixEpoch)
  nanos := Int32.ofInt (t % 1000000000)

/-- Why `CheckValid` refuses a timestamp. -/
inductive TimestampProblem where
  | underflow
  | overflow
  | nanos
  deriving DecidableEq

def Timestamp.checkValid (value : Timestamp) : Except TimestampProblem Unit :=
  if value.seconds.toInt < -unixEpoch then .error .underflow
  else if maxTimestamp < value.seconds.toInt then .error .overflow
  else if value.nanos.toInt < 0 ∨ 1000000000 ≤ value.nanos.toInt then .error .nanos
  else .ok ()

def Timestamp.asTime (value : Timestamp) : Time :=
  (value.seconds.toInt + unixEpoch) * 1000000000 + value.nanos.toInt

def timestamp (value : Time) : Option Timestamp :=
  if value.isZero then none else some (Timestamp.new value)

/-- An invalid argument: the field and what is wrong with it. -/
structure InvalidTime where
  field : String
  problem : TimestampProblem
  deriving DecidableEq

def timeFromTimestamp (value : Option Timestamp) (field : String) : Except InvalidTime Time :=
  match value with
  | none => .ok 0
  | some value =>
    match value.checkValid with
    | .error problem => .error ⟨field, problem⟩
    | .ok () => .ok value.asTime

/-! ### Conversions -/

def nodeToProto (value : NodeRecord) : NodeMessage where
  id := value.id
  kind := value.kind
  loopback := value.loopback
  labels := value.labels
  enabled := value.enabled

def nodeFromProto : Option NodeMessage → Option NodeRecord
  | none => none
  | some value => some
      { id := value.id, kind := value.kind, loopback := value.loopback, labels := value.labels
        enabled := value.enabled }

def linkToProto (value : LinkRecord) : LinkMessage where
  id := value.id
  source := value.source
  target := value.target
  adminUp := value.adminUp
  operationalUp := value.operationalUp
  latencyUs := value.latencyUS
  capacityBps := value.capacityBPS
  lossPpm := value.lossPPM
  reliabilityPpm := value.reliabilityPPM
  telemetryAt := timestamp value.telemetryAt
  validUntil := timestamp value.validUntil
  availabilityEnd := timestamp value.availabilityEnd
  riskGroups := value.riskGroups
  linkType := value.linkType
  acquisitionState := value.acquisitionState
  rangeKm := value.rangeKM
  dopplerHz := value.dopplerHz

def linkFromProto : Option LinkMessage → Except InvalidTime (Option LinkRecord)
  | none => .ok none
  | some value => do
    let telemetryAt ← timeFromTimestamp value.telemetryAt "link.telemetry_at"
    let validUntil ← timeFromTimestamp value.validUntil "link.valid_until"
    let availabilityEnd ← timeFromTimestamp value.availabilityEnd "link.availability_end"
    return some
      { id := value.id, source := value.source, target := value.target, adminUp := value.adminUp
        operationalUp := value.operationalUp, latencyUS := value.latencyUs
        capacityBPS := value.capacityBps, lossPPM := value.lossPpm
        reliabilityPPM := value.reliabilityPpm, telemetryAt := telemetryAt
        validUntil := validUntil, availabilityEnd := availabilityEnd
        riskGroups := value.riskGroups, linkType := value.linkType
        acquisitionState := value.acquisitionState, rangeKM := value.rangeKm
        dopplerHz := value.dopplerHz }

def intentToProto (value : RouteIntent) : IntentMessage where
  id := value.id
  source := value.source
  destination := value.destination
  destinationPrefix := value.destinationPrefix
  policy := value.policy
  maxLatencyUs := value.maxLatencyUS
  minCapacityBps := value.minCapacityBPS
  maxLossPpm := value.maxLossPPM
  requiredReliabilityPpm := value.requiredReliability
  -- both conversions keep the low 32 bits
  redundancy := UInt32.ofNat (value.redundancy % 2 ^ 32).toNat
  trafficClass := value.trafficClass
  priority := Int32.ofInt value.priority
  labels := value.labels
  demandBps := value.demandBPS
  gatewayCandidates := value.gatewayCandidates

def intentFromProto (value : IntentMessage) : RouteIntent where
  id := value.id
  source := value.source
  destination := value.destination
  destinationPrefix := value.destinationPrefix
  policy := value.policy
  maxLatencyUS := value.maxLatencyUs
  minCapacityBPS := value.minCapacityBps
  maxLossPPM := value.maxLossPpm
  requiredReliability := value.requiredReliabilityPpm
  redundancy := value.redundancy.toNat
  trafficClass := value.trafficClass
  priority := value.priority.toInt
  labels := value.labels
  demandBPS := value.demandBps
  gatewayCandidates := value.gatewayCandidates

/-! ### What comes back -/

def Representable (t : ℤ) : Prop := 0 ≤ t ∧ t < (unixEpoch + maxTimestamp + 1) * 1000000000

instance decidableRepresentable (t : ℤ) : Decidable (Representable t) :=
  inferInstanceAs (Decidable (_ ∧ _))

variable {value : Timestamp}

theorem Timestamp.checkValid_eq_ok_iff : value.checkValid = .ok () ↔
    (-unixEpoch ≤ value.seconds.toInt ∧ value.seconds.toInt ≤ maxTimestamp) ∧
      0 ≤ value.nanos.toInt ∧ value.nanos.toInt < 1000000000 := by
  unfold Timestamp.checkValid
  split_ifs with hlow hhigh hnanos
  · exact iff_of_false nofun fun h => absurd h.1.1 (not_le_of_gt hlow)
  · exact iff_of_false nofun fun h => absurd h.1.2 (not_le_of_gt hhigh)
  · exact iff_of_false nofun fun h => by omega
  · exact iff_of_true rfl (by omega)

theorem Timestamp.new_nanos (t : ℤ) : (Timestamp.new t).nanos.toInt = t % 1000000000 :=
  Int32.toInt_ofInt_of_le (by omega) (by omega)

variable {t : ℤ}

theorem Timestamp.new_seconds (h : Representable t) :
    (Timestamp.new t).seconds.toInt = t / 1000000000 - unixEpoch := by
  have hepoch : unixEpoch = 62135596800 := rfl
  have hmax : maxTimestamp = 253402300799 := rfl
  unfold Representable at h
  exact Int64.toInt_ofInt_of_le (by omega) (by omega)

theorem Timestamp.asTime_representable (h : value.checkValid = .ok ()) :
    Representable value.asTime := by
  obtain ⟨⟨hlow, hhigh⟩, hnanos, hnanos'⟩ := Timestamp.checkValid_eq_ok_iff.mp h
  unfold Representable Timestamp.asTime
  omega

theorem Timestamp.new_valid (h : Representable t) :
    (Timestamp.new t).checkValid = .ok () ∧ (Timestamp.new t).asTime = t := by
  have hseconds := Timestamp.new_seconds h
  have hnanos := Timestamp.new_nanos t
  have hback : (t / 1000000000 - unixEpoch + unixEpoch) * 1000000000 + t % 1000000000 = t := by
    omega
  unfold Representable at h
  rw [Timestamp.checkValid_eq_ok_iff, Timestamp.asTime, hseconds, hnanos]
  exact ⟨by omega, hback⟩

theorem timeFromTimestamp_timestamp_iff {field : String} :
    timeFromTimestamp (timestamp t) field = .ok t ↔ Representable t := by
  unfold timestamp Time.isZero
  by_cases hzero : t = 0
  · subst hzero
    exact iff_of_true rfl (by decide)
  rw [if_neg (by simpa using hzero)]
  unfold timeFromTimestamp
  dsimp only
  constructor
  · intro h
    cases hvalid : (Timestamp.new t).checkValid with
    | error problem =>
      rw [hvalid] at h
      cases h
    | ok =>
      rw [hvalid] at h
      have hback : (Timestamp.new t).asTime = t := Except.ok.inj h
      rw [← hback]
      exact Timestamp.asTime_representable hvalid
  · intro h
    obtain ⟨hvalid, hback⟩ := Timestamp.new_valid h
    rw [hvalid]
    exact congrArg _ hback

/-- The times of a link are in the years 1 to 9999. -/
structure Timely (link : Link) : Prop where
  telemetryAt : Representable link.telemetryAt
  validUntil : Representable link.validUntil
  availabilityEnd : Representable link.availabilityEnd

theorem linkFromProto_linkToProto_iff {link : LinkRecord} :
    linkFromProto (some (linkToProto link)) = .ok (some link) ↔ Timely link.toLink := by
  unfold linkFromProto linkToProto
  dsimp only
  constructor
  · intro h
    obtain ⟨telemetryAt, htelemetry, h⟩ := bind_eq_ok.mp h
    obtain ⟨validUntil, hvalid, h⟩ := bind_eq_ok.mp h
    obtain ⟨availabilityEnd, havailability, h⟩ := bind_eq_ok.mp h
    have hlink := congrArg LinkRecord.toLink (Option.some.inj (Except.ok.inj h))
    rw [← hlink]
    rw [congrArg Link.telemetryAt hlink.symm] at htelemetry
    rw [congrArg Link.validUntil hlink.symm] at hvalid
    rw [congrArg Link.availabilityEnd hlink.symm] at havailability
    exact ⟨timeFromTimestamp_timestamp_iff.mp htelemetry, timeFromTimestamp_timestamp_iff.mp hvalid,
      timeFromTimestamp_timestamp_iff.mp havailability⟩
  · rintro ⟨htelemetry, hvalid, havailability⟩
    rw [timeFromTimestamp_timestamp_iff.mpr htelemetry, timeFromTimestamp_timestamp_iff.mpr hvalid,
      timeFromTimestamp_timestamp_iff.mpr havailability]
    rfl

@[simp] theorem nodeFromProto_nodeToProto (node : NodeRecord) :
    nodeFromProto (some (nodeToProto node)) = some node := rfl

def FitsInt32 (n : ℤ) : Prop := -2 ^ 31 ≤ n ∧ n < 2 ^ 31

theorem intentFromProto_intentToProto_iff {intent : RouteIntent} (h : intent.Valid) :
    intentFromProto (intentToProto intent) = intent ↔ FitsInt32 intent.priority := by
  have hredundancy : ((UInt32.ofNat (intent.redundancy % 2 ^ 32).toNat).toNat : ℤ) =
      intent.redundancy := by
    obtain ⟨hlow, hhigh⟩ := h.redundancy
    have hmod : (intent.redundancy % 2 ^ 32).toNat < 2 ^ 32 := by omega
    rw [UInt32.toNat_ofNat_of_lt' hmod]
    omega
  constructor
  · intro hback
    have hpriority : (Int32.ofInt intent.priority).toInt = intent.priority :=
      congrArg RouteIntent.priority hback
    rw [← hpriority]
    exact ⟨Int32.le_toInt _, Int32.toInt_lt _⟩
  · rintro ⟨hlow, hhigh⟩
    have hpriority : (Int32.ofInt intent.priority).toInt = intent.priority :=
      Int32.toInt_ofInt_of_le hlow hhigh
    unfold intentFromProto intentToProto
    rw [hredundancy, hpriority]

/-! ### Reading and writing back -/

/-- The links that are written back when a client publishes the links it has read. -/
def writeBackLinks (links : List LinkRecord) : Except InvalidTime (List LinkRecord) := do
  let back ← links.mapM fun link => linkFromProto (some (linkToProto link))
  return back.reduceOption

def writeBackNodes (nodes : List NodeRecord) : List NodeRecord :=
  nodes.filterMap fun node => nodeFromProto (some (nodeToProto node))

def writeBackIntents (intents : List RouteIntent) : List RouteIntent :=
  intents.map fun intent => intentFromProto (intentToProto intent)

theorem writeBackLinks_eq_ok {links : List LinkRecord} (h : ∀ link ∈ links, Timely link.toLink) :
    writeBackLinks links = .ok links := by
  have hback : links.mapM (fun link => linkFromProto (some (linkToProto link))) =
      .ok (links.map some) := by
    induction links with
    | nil => rfl
    | cons link links ih =>
      obtain ⟨hlink, hlinks⟩ := forall_mem_cons.mp h
      rw [mapM_cons, linkFromProto_linkToProto_iff.mpr hlink, ih hlinks]
      rfl
  unfold writeBackLinks
  rw [hback]
  refine congrArg Except.ok ?_
  show (links.map some).filterMap id = links
  rw [filterMap_map]
  exact filterMap_some

theorem writeBackNodes_eq (nodes : List NodeRecord) : writeBackNodes nodes = nodes := by
  unfold writeBackNodes
  simp only [nodeFromProto_nodeToProto, filterMap_some]

theorem writeBackIntents_eq {intents : List RouteIntent}
    (h : ∀ intent ∈ intents, intentFromProto (intentToProto intent) = intent) :
    writeBackIntents intents = intents :=
  (map_congr_left h).trans (map_id intents)

def bulk (id : String) (priority : ℤ) : RouteIntent :=
  { id := id, source := "s", destination := "d", destinationPrefix := "10.1.0.0/16"
    demandBPS := 60, priority := priority }

def measuredLink (t : Time) : LinkRecord :=
  { Planner.diamondLink "s" "a" with telemetryAt := t, linkType := "optical" }

def plannedNodes (plan : Except Policy.Failure RoutePlan) (id : String) :
    Option (List (List String)) :=
  plan.toOption.bind fun plan => (plan.paths.lookup id).map fun paths => paths.map Path.nodes

end StarFabric.Api

import StarFabric.Py.Bytes

/-!
# The EVPN codec

`lab/live/evpn_codec.py`: the encoding and decoding of BGP messages for EVPN routes of the types 2
(MAC), 3 (inclusive multicast) and 5 (IPv4 host prefix) with an SRv6 service SID. The key of a route
is a text in the source. Keys are only compared, and everything a decoded record holds can be read
off its key, so a record is its key here (`Key`).
-/

namespace StarFabric.Evpn

open Py Wire

def af : Bytes := [0x00, 0x19, 0x46]

def dx4 : ℕ := 0x0011

def dx2 : ℕ := 0x0015

/-! ### Values -/

/-- A decoded NLRI record, and its key. -/
inductive Key where
  | host (address : Octets 4)
  | mac (evi : ℕ) (mac : Octets 6)
  | imet (evi : ℕ) (originator : Octets 16)
  deriving DecidableEq

namespace Key

def routeType : Key → ℕ
  | host _ => 5
  | mac _ _ => 2
  | imet _ _ => 3

def evi : Key → ℕ
  | host _ => 100
  | mac evi _ => evi
  | imet evi _ => evi

def originator : Key → Except Error (Octets 16)
  | imet _ originator => .ok originator
  | _ => .error .keyError

end Key

inductive Behavior where
  | endDX2
  | endDX4
  deriving DecidableEq, Repr

/-- An announced route. Its route target is that of the autonomous system 65000 and a number. -/
structure Route where
  key : Key
  sid : Octets 16
  nexthop : Octets 16
  behavior : Behavior
  routeTarget : ℕ
  sequence : ℕ
  deriving DecidableEq

def badSid (sid : Octets 16) : Bool := sid.1.head? == some 0xff || sid.1 == zeros 16

/-! ### Messages -/

def tlv (kind : UInt8) (value : Bytes) : Except Error Bytes := do
  return [kind] ++ (← pack 2 value.length) ++ value

def tlvsBody (found : List (UInt8 × Bytes)) (data : Bytes) :
    Except Error (List (UInt8 × Bytes) × Bytes) :=
  if data.length < 3 then raise "truncated TLV header"
  else match data.take 3 with
    | [kind, high, low] =>
      let size := Wire.value [high, low]
      if data.length < size + 3 then raise "truncated TLV value"
      else .ok (found ++ [(kind, slice 3 (size + 3) data)], data.drop (size + 3))
    | _ => .error .structError

def tlvs (data : Bytes) : Except Error (List (UInt8 × Bytes)) := whileData tlvsBody [] data

def message (kind : UInt8) (data : Bytes) : Except Error Bytes :=
  if 4077 < data.length then raise "BGP message exceeds 4096 octets"
  else do return List.replicate 16 0xff ++ (← pack 2 (19 + data.length)) ++ [kind] ++ data

def openMessage (routerId : Octets 4) : Except Error Bytes := do
  let capability : Bytes := [0x01, 0x04, 0x00, 0x19, 0x00, 0x46]
  let optional : Bytes := [2, ← octet capability.length] ++ capability
  message 1 ([4] ++ (← pack 2 65000) ++ (← pack 2 30) ++ routerId.1 ++ (← pack 1 optional.length) ++
    optional)

/-- An item with a kind and a size of one octet each, and the data behind it. -/
structure Item where
  kind : UInt8
  size : UInt8
  value : Bytes
  rest : Bytes

def takeItem (truncated : String) (data : Bytes) : Except Error Item := do
  if data.length < 2 then raise truncated
  else if data.length < 2 + (← item data 1).toNat then raise truncated
  else
    let (kind, size) ← pair (data.take 2)
    return ⟨kind, size, slice 2 (2 + size.toNat) data, data.drop (2 + size.toNat)⟩

def capabilityBody (evpn : Bool) (data : Bytes) : Except Error (Bool × Bytes) := do
  let head ← takeItem "truncated capability" data
  let found := head.kind == 1 && head.value == [0x00, 0x19, 0x00, 0x46]
  return (evpn || found, head.rest)

def optionBody (evpn : Bool) (data : Bytes) : Except Error (Bool × Bytes) := do
  let head ← takeItem "truncated OPEN option" data
  if head.kind ≠ 2 then raise "unsupported OPEN option"
  else
    let evpn ← whileData capabilityBody evpn head.value
    return (evpn, head.rest)

def readOpen (data : Bytes) : Except Error ℕ := do
  if data.length < 10 then raise "truncated OPEN"
  else
    let version ← item data 0
    let asn := Wire.value (slice 1 3 data)
    let hold := Wire.value (slice 3 5 data)
    let size ← item data 9
    if version ≠ 4 ∨ asn ≠ 65000 ∨ hold < 3 ∨ data.length ≠ 10 + size.toNat then
      raise "unsupported BGP version/AS/hold/options"
    else if !(← whileData optionBody false (data.drop 10)) then
      raise "peer did not negotiate EVPN"
    else return min 30 hold

/-! ### Routes on the wire -/

/-- `nlri`, for a network with an address and a prefix length. -/
def nlri (routerId address : Octets 4) (prefixlen : UInt8) : Except Error Bytes := do
  let rd := (← pack 2 1) ++ routerId.1 ++ (← pack 2 100)
  let value := rd ++ zeros 14 ++ [prefixlen] ++ address.1 ++ zeros 4 ++ [0x00, 0x00, 0x30]
  return [5, ← octet value.length] ++ value

def prefixesBody (found : List Key) (data : Bytes) : Except Error (List Key × Bytes) := do
  let head ← takeItem "truncated EVPN NLRI" data
  let v := head.value
  let unsupported := "unsupported Type-5 encoding (only IPv4 /32, full SID)"
  if head.kind ≠ 5 then return (found, head.rest)
  else if head.size ≠ 34 ∨ slice 8 22 v ≠ zeros 14 then raise unsupported
  else if (← item v 22) ≠ 32 ∨ slice 27 31 v ≠ zeros 4 ∨ v.drop 31 ≠ [0x00, 0x00, 0x30] then
    raise unsupported
  else
    let host ← address 4 (slice 23 27 v)
    return (found ++ [.host host], head.rest)

def prefixes (data : Bytes) : Except Error (List Key) := whileData prefixesBody [] data

/-- `l2_nlri`, for a MAC or for the originator of an inclusive-multicast route. -/
def l2Nlri (routerId : Octets 4) (evi : ℕ) (mac : Option (Octets 6)) (originator : Octets 16) :
    Except Error Bytes := do
  let rd := (← pack 2 1) ++ routerId.1 ++ (← pack 2 evi)
  match mac with
  | some mac =>
    let value := rd ++ zeros 14 ++ [0x30] ++ mac.1 ++ [0x00, 0x00, 0x00, 0x30]
    return [2, ← octet value.length] ++ value
  | none =>
    let value := rd ++ zeros 4 ++ [0x80] ++ originator.1
    return [3, ← octet value.length] ++ value

def l2Record (kind size : UInt8) (v : Bytes) : Except Error Key := do
  if v.length < 8 ∨ v.take 2 ≠ [0x00, 0x01] then raise "unsupported L2 RD"
  else
    let evi := Wire.value (slice 6 8 v)
    if kind = 2 then
      if size ≠ 33 ∨ slice 8 22 v ≠ zeros 14 then raise "unsupported MAC-only Type-2"
      else if (← item v 22) ≠ 48 ∨ v.drop 29 ≠ [0x00, 0x00, 0x00, 0x30] then
        raise "unsupported MAC-only Type-2"
      else return .mac evi (← address 6 (slice 23 29 v))
    else if size ≠ 29 ∨ slice 8 13 v ≠ zeros 4 ++ [0x80] then raise "unsupported Type-3"
    else return .imet evi (← address 16 (slice 13 29 v))

def recordsBody (found : List Key) (data : Bytes) : Except Error (List Key × Bytes) := do
  let head ← takeItem "truncated EVPN NLRI" data
  if head.kind = 5 then
    return (found ++ (← prefixes ([head.kind, head.size] ++ head.value)), head.rest)
  else if head.kind = 2 ∨ head.kind = 3 then
    return (found ++ [← l2Record head.kind head.size head.value], head.rest)
  -- other types are passed over
  else return (found, head.rest)

def records (data : Bytes) : Except Error (List Key) := whileData recordsBody [] data

/-! ### Updates -/

def attr (kind : UInt8) (value : Bytes) (flags : UInt8) : Except Error Bytes := do
  return [flags ||| 0x10, kind] ++ (← pack 2 value.length) ++ value

def withdrawal (route : Bytes) : Except Error Bytes := attr 15 (af ++ route) 0x80

/-- The attributes of an announcement: the communities, the kind of the service TLV with the
behaviour, and the next hop with the route. -/
def announcement (communities : Bytes) (service : UInt8) (behavior : ℕ) (sid nexthop : Octets 16)
    (route : Bytes) : Except Error Bytes := do
  let info := [0x00] ++ sid.1 ++ [0] ++ (← pack 2 behavior) ++ [0]
  return (← attr 1 [0x00] 0x40) ++ (← attr 2 [] 0x40) ++ (← attr 5 (← pack 4 100) 0x40) ++
    (← attr 16 communities 0xc0) ++ (← attr 40 (← tlv service ([0x00] ++ (← tlv 1 info))) 0xc0) ++
    (← attr 14 (af ++ [0x10] ++ nexthop.1 ++ [0x00] ++ route) 0x80)

def routeTarget (evi : ℕ) : Except Error Bytes := do
  return [0, 2] ++ (← pack 2 65000) ++ (← pack 4 evi)

def updateMessage (attributes : Bytes) : Except Error Bytes := do
  message 2 ([0x00, 0x00] ++ (← pack 2 attributes.length) ++ attributes)

def update (routerId host : Octets 4) (prefixlen : UInt8) (nexthop sid : Octets 16)
    (withdraw : Bool) : Except Error Bytes := do
  let route ← nlri routerId host prefixlen
  if withdraw then updateMessage (← withdrawal route)
  else updateMessage (← announcement (← routeTarget 100) 5 dx4 sid nexthop route)

def mobility (sequence : ℕ) : Except Error Bytes := do
  return [0x06, 0x00, 0x00, 0x00] ++ (← pack 4 sequence)

/-- The attribute that names the tunnel endpoint of an inclusive-multicast route. -/
def tunnel (nexthop : Octets 16) : Except Error Bytes :=
  attr 22 ([0x00, 0x06, 0x00, 0x00, 0x30] ++ nexthop.1) 0xc0

def l2Update (routerId : Octets 4) (evi : ℕ) (nexthop sid : Octets 16) (mac : Option (Octets 6))
    (sequence : ℕ) (withdraw : Bool) : Except Error Bytes := do
  let route ← l2Nlri routerId evi mac nexthop
  if withdraw then updateMessage (← withdrawal route)
  else
    let communities ← routeTarget evi
    match mac with
    | some _ =>
      let communities := communities ++ (← mobility sequence)
      updateMessage (← announcement communities 6 dx2 sid nexthop route)
    | none =>
      let attributes ← announcement communities 6 dx2 sid nexthop route
      updateMessage (attributes ++ (← tunnel nexthop))

/-! ### Reading updates -/

abbrev Attributes := List (UInt8 × Bytes)

def attributesBody (attributes : Attributes) (data : Bytes) :
    Except Error (Attributes × Bytes) := do
  if data.length < 3 then raise "truncated attribute"
  else
    let (flags, kind) ← pair (data.take 2)
    let n := if flags &&& 0x10 ≠ 0 then 4 else 3
    if data.length < n then raise "truncated attribute length"
    else
      let length := Wire.value (slice 2 n data)
      if data.length < n + length ∨ (attributes.lookup kind).isSome then
        raise "invalid or duplicate attribute"
      else return (attributes ++ [(kind, slice n (n + length) data)], data.drop (n + length))

def readAttributes (data : Bytes) : Except Error Attributes := do
  if data.length < 4 ∨ data.take 2 ≠ [0x00, 0x00] then raise "invalid EVPN UPDATE"
  else if data.length ≠ Wire.value (slice 2 4 data) + 4 then raise "invalid path attributes length"
  else whileData attributesBody [] (data.drop 4)

structure Service where
  communities : List Bytes
  l2 : Bool
  evi : ℕ
  sid : Octets 16

def readService (attributes : Attributes) (announced : List Key) : Except Error Service := do
  if attributes.lookup 1 ≠ some [0x00] ∨ attributes.lookup 2 ≠ some [] ∨
      attributes.lookup 5 ≠ some (← pack 4 100) then raise "not an internal originated route"
  else
    let octets := (attributes.lookup 16).getD []
    if octets.length % 8 ≠ 0 then raise "invalid extended community"
    else
      let communities := chunks 8 octets
      match announced with
      | [] => .error .indexError
      | first :: _ =>
        if announced.any fun r => r.evi != first.evi || r.routeType != first.routeType then
          raise "mixed service UPDATE unsupported"
        else if !communities.contains (← routeTarget first.evi) then raise "route target mismatch"
        else
          let l2 := first.routeType == 2 || first.routeType == 3
          let services ← tlvs ((attributes.lookup 40).getD [])
          let service ← next (fun t => t.1 == if l2 then 6 else 5) services
          if service.2 = [] then raise "missing service reserved byte"
          else
            let information ← tlvs (service.2.drop 1)
            let info ← next (fun t => t.1 == 1) information
            if info.2.length ≠ 21 ∨ Wire.value (slice 18 20 info.2) ≠ (if l2 then dx2 else dx4) then
              raise "unsupported SID structure or behavior"
            else
              let sid ← address 16 (slice 1 17 info.2)
              if badSid sid then raise "invalid service SID"
              else return ⟨communities, l2, first.evi, sid⟩

def caught : Error → Bool
  | .valueError _ | .stopIteration => true
  | _ => false

def mobilitySequence (communities : List Bytes) : ℕ :=
  ((communities.filter fun c => c.take 4 == [0x06, 0x00, 0x00, 0x00]).map
    fun c => Wire.value (c.drop 4)).foldl max 0

/-- The check of an inclusive-multicast route: the tunnel endpoint and every originator are the
next hop. -/
def badImet (attributes : Attributes) (announced : List Key) (nexthop : Octets 16) :
    Except Error Bool := do
  match announced with
  | [] => .error .indexError
  | first :: _ =>
    if first.routeType ≠ 3 then return false
    else if attributes.lookup 22 ≠ some ([0x00, 0x06, 0x00, 0x00, 0x30] ++ nexthop.1) then
      return true
    else
      let originators ← announced.mapM Key.originator
      return originators.any fun originator => originator != nexthop

/-- The routes of an MP_REACH attribute: announced, or to be treated as withdrawn. -/
def readReach (attributes : Attributes) (reach : Bytes) : Except Error (List Route × List Key) := do
  if reach.length < 21 ∨ reach.take 4 ≠ af ++ [0x10] then raise "EVPN SRv6 needs an IPv6 next hop"
  else
    let announced ← records (reach.drop 21)
    if announced = [] then return ([], [])
    else
      match readService attributes announced with
      | .error e => if caught e then return ([], announced) else .error e
      | .ok service =>
        let nexthop ← address 16 (slice 4 20 reach)
        if ← badImet attributes announced nexthop then return ([], announced)
        else
          return (announced.map fun key =>
            { key := key, sid := service.sid, nexthop := nexthop
              behavior := if service.l2 then .endDX2 else .endDX4
              routeTarget := service.evi
              sequence := mobilitySequence service.communities }, [])

def readUnreach (attributes : Attributes) : Except Error (List Key) :=
  match attributes.lookup 15 with
  | none => .ok []
  | some unreach =>
    if unreach.take 3 ≠ af then raise "wrong MP_UNREACH family" else records (unreach.drop 3)

def readUpdate (data : Bytes) : Except Error (List Route × List Key) := do
  let attributes ← readAttributes data
  let withdrawn ← readUnreach attributes
  match attributes.lookup 14 with
  | none => return ([], withdrawn)
  | some reach =>
    let (announced, treated) ← readReach attributes reach
    return (announced, withdrawn ++ treated)

end StarFabric.Evpn

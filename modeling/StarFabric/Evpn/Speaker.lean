import StarFabric.Evpn.Codec
import StarFabric.Lib.Champion
import Mathlib.Data.List.AList
import Mathlib.Data.List.Dedup
import Mathlib.Data.List.Sort

/-!
# The EVPN speaker

`lab/live/evpn_speaker.py`, with the MAC learning of `lab/live/evpn_l2.py`: one process with a BGP
session to each of its peers. A run is a list of events, each of them what one task does between two
waits (`Event`). Timeouts and failures of the network are the event `fail`. An exception that no
task catches ends the process (`step` is then `none`).
-/

namespace StarFabric.Evpn

open Py Wire

abbrev Address := Octets 16

instance Address.lawfulBEq : LawfulBEq Address := inferInstance

/-! ### Texts of addresses -/

/-- The first longest run of zeros in a list, as its start and its length: a fold over the positions
with the current run and the best one. -/
def longestRun (l : List ℕ) : ℕ × ℕ :=
  let step := fun (state : (ℕ × ℕ) × ℕ × ℕ) (x : ℕ × ℕ) =>
    let (run, bestRun) := state
    if x.1 = 0 then
      let run := if run.2 = 0 then (x.2, 1) else (run.1, run.2 + 1)
      (run, if bestRun.2 < run.2 then run else bestRun)
    else ((0, 0), bestRun)
  (l.zipIdx.foldl step ((0, 0), (0, 0))).2

def text (a : Address) : List Char :=
  let hextets := (List.range 8).map fun i => Wire.value (slice (2 * i) (2 * i + 2) a.1)
  let digits := hextets.map fun n => Nat.toDigits 16 n
  let (start, length) := longestRun hextets
  let parts :=
    if 1 < length then
      (if start = 0 then [[]] else []) ++ digits.take start ++ [[]] ++ digits.drop (start + length) ++
        (if start + length = 8 then [[]] else [])
    else digits
  [':'].intercalate parts

/-! ### Configuration -/

/-- `ipaddress.IPv6Network`. -/
structure Network where
  address : Address
  prefixlen : ℕ

def Network.contains (network : Network) (a : Address) : Bool :=
  Wire.value a.1 / 2 ^ (128 - network.prefixlen) ==
    Wire.value network.address.1 / 2 ^ (128 - network.prefixlen)

/-- An element of `imports`. The locator is a text, which may not be a network. -/
structure Import where
  peer : Address
  locator : Option Network

/-- An element of `l2`. -/
structure L2Service where
  evi : ℕ
  sid : Address

structure Config where
  routerId : Octets 4
  address : Address
  sid : Address
  peers : List Address
  imports : List (Octets 4 × Import)
  exports : List (Octets 4)
  exportSids : List (Octets 4 × Address)
  l2 : List L2Service

namespace Config

/-- `ethernet.services[evi]`: a later element replaces an earlier one with its EVI. -/
def service (c : Config) (evi : ℕ) : Option L2Service := c.l2.reverse.find? fun v => v.evi = evi

def evis (c : Config) : List ℕ := (c.l2.map L2Service.evi).dedup

def order (c : Config) : List Address :=
  c.peers.dedup.insertionSort fun a b => ¬ text a < text b

end Config

/-! ### State -/

structure Entry where
  route : Route
  peer : Address
  deriving DecidableEq

abbrev Table := Key → Option Entry

/-- An element of `ethernet.local`. -/
structure LocalMac where
  evi : ℕ
  mac : Octets 6
  sequence : ℕ
  lastSeen : ℤ
  deriving DecidableEq

abbrev LocalMacs := AList fun _ : Key => LocalMac

abbrev Exports := List (Key × Bytes × Bytes)

inductive Phase where
  | openSent
  | openConfirm
  | established
  deriving DecidableEq, Repr

/-- A session, with the octets that have arrived and have not been read. -/
structure Session where
  phase : Phase
  received : Bytes
  deriving DecidableEq

structure Speaker where
  sessions : Address → Option Session
  peerRoutes : Address → Option Table
  routes : Table
  macs : LocalMacs
  advertised : Address → Option Exports
  -- the `exports` of the current round of `publish`
  snapshot : Option Exports
  outgoing : Address → Bytes

def Speaker.initial : Speaker where
  sessions := fun _ => none
  peerRoutes := fun _ => none
  routes := fun _ => none
  macs := ∅
  advertised := fun _ => none
  snapshot := none
  outgoing := fun _ => []

def Speaker.write (s : Speaker) (peer : Address) (octets : Bytes) : Speaker :=
  { s with outgoing := Function.update s.outgoing peer (s.outgoing peer ++ octets) }

/-! ### Routes -/

/-- The routes that `select_routes` chooses from the tables of the peers. -/
def select (c : Config) (peerRoutes : Address → Option Table) : Table := fun key =>
  Champion.best (fun entry : Entry => entry.route.sequence)
    (c.order.map fun peer => (peerRoutes peer).bind fun table => table key)

def Speaker.selectRoutes (c : Config) (s : Speaker) : Speaker :=
  { s with routes := select c s.peerRoutes }

/-- The end of the loop over announced routes: a route with the wrong next hop or with a SID outside
of the locator removes what was there. -/
def accept (peer : Address) (locator : Except Error Network) (table : Table) (route : Route) :
    Except Error Table :=
  if route.nexthop ≠ peer then .ok (Function.update table route.key none)
  else do
    if (← locator).contains route.sid then
      return Function.update table route.key (some ⟨route, peer⟩)
    else return Function.update table route.key none

def importRoute (c : Config) (peer : Address) (table : Table) (route : Route) :
    Except Error Table :=
  match route.key with
  | .host host =>
    match c.imports.lookup host with
    | none => .ok table
    | some expected =>
      if expected.peer ≠ peer then .ok table
      else
        let locator := match expected.locator with
          | some network => .ok network
          | none => raise "does not appear to be an IPv6 network"
        accept peer locator table route
  | .mac evi _ | .imet evi _ =>
    if evi ∉ c.evis then .ok table else accept peer (.ok ⟨peer, 64⟩) table route

def onUpdate (c : Config) (peer : Address) (table : Table) (body : Bytes) : Except Error Table := do
  let (routes, withdrawn) ← readUpdate body
  routes.foldlM (importRoute c peer)
    (withdrawn.foldl (fun table key => Function.update table key none) table)

/-! ### MAC learning and exports -/

def Speaker.learned (s : Speaker) (evi : ℕ) (mac : Octets 6) (now : ℤ) : Speaker :=
  let key := Key.mac evi mac
  let remote := s.routes key
  let sequence := match remote with
    | some entry => entry.route.sequence + 1
    | none => 0
  match s.macs.lookup key with
  | none => { s with macs := s.macs.insert key ⟨evi, mac, sequence, now⟩ }
  | some old =>
    if old.sequence < (remote.map fun entry => entry.route.sequence).getD 0 then
      { s with macs := s.macs.insert key ⟨evi, mac, sequence, now⟩ }
    else { s with macs := s.macs.insert key { old with lastSeen := now } }

/-- `Ethernet.exports`: entries are kept for 300 seconds. -/
def fresh (macs : LocalMacs) (now : ℤ) : LocalMacs :=
  ⟨macs.entries.filter fun e => now - e.2.lastSeen < 300,
    List.NodupKeys.sublist List.filter_sublist macs.nodupKeys⟩

def hostExport (c : Config) (host : Octets 4) : Except Error (Key × Bytes × Bytes) := do
  let sid := (c.exportSids.lookup host).getD c.sid
  return (.host host, ← update c.routerId host 32 c.address sid false,
    ← update c.routerId host 32 c.address sid true)

def imetExport (c : Config) (evi : ℕ) : Except Error (Key × Bytes × Bytes) :=
  match c.service evi with
  | none => .error .keyError
  | some service => do
    return (.imet evi c.address, ← l2Update c.routerId evi c.address service.sid none 0 false,
      ← l2Update c.routerId evi c.address service.sid none 0 true)

def macExport (c : Config) (m : LocalMac) : Except Error (Key × Bytes × Bytes) :=
  match c.service m.evi with
  | none => .error .keyError
  | some service => do
    return (.mac m.evi m.mac,
      ← l2Update c.routerId m.evi c.address service.sid (some m.mac) m.sequence false,
      ← l2Update c.routerId m.evi c.address service.sid (some m.mac) 0 true)

def exports (c : Config) (macs : LocalMacs) : Except Error Exports := do
  let hosts ← c.exports.dedup.mapM (hostExport c)
  let imets ← c.evis.mapM (imetExport c)
  let learned ← macs.entries.mapM fun e => macExport c e.2
  return hosts ++ imets ++ learned

/-- The messages that turn the exports `old` of a peer into the exports `new`. -/
def changes (old new : Exports) : Bytes :=
  ((old.filter fun e => (new.lookup e.1).isNone).flatMap fun e => e.2.2) ++
    ((new.filter fun e => old.lookup e.1 != some e.2).flatMap fun e => e.2.1)

/-! ### Sessions -/

/-- `receive`: the first message of the octets that have arrived and what is behind it, when all of
it has arrived. -/
def receive (data : Bytes) : Except Error (Option (UInt8 × Bytes × Bytes)) := do
  if data.length < 19 then return none
  else
    let size := Wire.value (slice 16 18 data)
    let kind ← item data 18
    if data.take 16 ≠ List.replicate 16 0xff ∨ size < 19 ∨ 4096 < size ∨ kind ∉ [1, 2, 3, 4] then
      raise "invalid BGP header"
    else if data.length < size then return none
    else return some (kind, slice 19 size data, data.drop size)

def Speaker.handle (c : Config) (s : Speaker) (peer : Address) (now : ℤ) (phase : Phase)
    (kind : UInt8) (body : Bytes) : Except Error (Phase × Speaker) :=
  match phase with
  | .openSent =>
    if kind ≠ 1 then raise "expected OPEN"
    else do
      let _hold ← readOpen body
      return (.openConfirm, s.write peer (← message 4 []))
  | .openConfirm =>
    if kind ≠ 4 ∨ body ≠ [] then raise "expected KEEPALIVE"
    else do
      let macs := fresh s.macs now
      let exported ← exports c macs
      let s := { s with
        peerRoutes := Function.update s.peerRoutes peer (some fun _ => none)
        macs := macs
        advertised := Function.update s.advertised peer (some exported) }
      return (.established, s.write peer (exported.flatMap fun e => e.2.1))
  | .established =>
    if kind = 4 ∧ body = [] then .ok (.established, s)
    else if kind ≠ 2 then raise "unexpected BGP message / NOTIFICATION"
    else
      match s.peerRoutes peer with
      | none => .error .keyError
      | some table => do
        let table ← onUpdate c peer table body
        let s := { s with peerRoutes := Function.update s.peerRoutes peer (some table) }
        return (.established, s.selectRoutes c)

def Speaker.endSession (c : Config) (s : Speaker) (peer : Address) : Speaker :=
  Speaker.selectRoutes c { s with
    sessions := Function.update s.sessions peer none
    peerRoutes := Function.update s.peerRoutes peer none
    advertised := Function.update s.advertised peer none
    outgoing := Function.update s.outgoing peer [] }

def Speaker.read (c : Config) (s : Speaker) (peer : Address) (now : ℤ) : Option Speaker :=
  match s.sessions peer with
  | none => some s
  | some session =>
    match receive session.received with
    | .error _ => some (s.endSession c peer)
    | .ok none => some s
    | .ok (some (kind, body, rest)) =>
      match s.handle c peer now session.phase kind body with
      | .ok (phase, s) =>
        some { s with sessions := Function.update s.sessions peer (some ⟨phase, rest⟩) }
      | .error (.valueError _) => some (s.endSession c peer)
      | .error _ => none

inductive Event where
  | connect (peer : Address)
  | arrive (peer : Address) (octets : Bytes)
  | read (peer : Address) (now : ℤ)
  | fail (peer : Address)
  | keepalive (peer : Address)
  | send (peer : Address)
  | frame (evi : ℕ) (mac : Octets 6) (now : ℤ)
  | tick (now : ℤ)

def Event.peer : Event → Option Address
  | connect peer | arrive peer _ | read peer _ | fail peer | keepalive peer | send peer => some peer
  | frame _ _ _ | tick _ => none

def Speaker.connect (c : Config) (s : Speaker) (peer : Address) : Option Speaker :=
  if peer ∉ c.peers ∨ (s.sessions peer).isSome then some s
  else match openMessage c.routerId with
    | .error _ => none
    | .ok octets =>
      some (Speaker.write { s with
        sessions := Function.update s.sessions peer (some ⟨.openSent, []⟩) } peer octets)

def Speaker.send (s : Speaker) (peer : Address) : Speaker :=
  match s.advertised peer, s.snapshot with
  | some old, some new =>
    { s.write peer (changes old new) with
      advertised := Function.update s.advertised peer (some new) }
  | _, _ => s

def Speaker.step (c : Config) (s : Speaker) : Event → Option Speaker
  | .connect peer => s.connect c peer
  | .arrive peer octets =>
    match s.sessions peer with
    | none => some s
    | some session => some { s with
        sessions := Function.update s.sessions peer
          (some { session with received := session.received ++ octets }) }
  | .read peer now => s.read c peer now
  | .fail peer => if (s.sessions peer).isSome then some (s.endSession c peer) else some s
  | .keepalive peer =>
    match s.advertised peer, message 4 [] with
    | some _, .ok octets => some (s.write peer octets)
    | _, _ => some s
  | .send peer => some (s.send peer)
  | .frame evi mac now => if evi ∈ c.evis then some (s.learned evi mac now) else some s
  | .tick now =>
    let macs := fresh s.macs now
    match exports c macs with
    | .ok exported => some { s with macs := macs, snapshot := some exported }
    | .error _ => none

def Speaker.run (c : Config) (events : List Event) : Option Speaker :=
  events.foldlM (Speaker.step c) Speaker.initial

end StarFabric.Evpn

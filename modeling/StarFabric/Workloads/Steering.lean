import StarFabric.Lib.Ledger
import StarFabric.Workloads.Catalog
import Mathlib.Data.List.ReduceOption

/-!
# Steering of the workloads

`Workloads.update` of `lab/live/workloads.py`, which runs once a tick: it installs, replaces or
withdraws the route of every direction that the controller steers. The commands are carried out by
`lab/platform/wire.py` in one list, which stops where a command fails. What one call sees of its
surroundings is a `Tick`. The fields that only the dashboard reads are left out, as are the N3 state
and the default routes of the setup.
-/

namespace StarFabric.Workloads

open Function

abbrev Args := List String

structure Job where
  pid : ℕ
  args : Args

/-! ### Surroundings -/

/-- What does not change: processes, adjacencies and addresses. -/
structure Fabric where
  pid : Node → ℕ
  interface : Node → Node → Except Error String
  hop : Node → Node → Except Error String
  loopback : Node → Except Error String
  locator : Node → Except Error String
  svi : Node → Except Error String
  sid : Node → Except Error ℕ
  n3Evpn : Bool
  -- `service()`: node, remote node, target and intent
  service : List (Node × Node × String × String)

structure Plan where
  id : String
  paths : String → Option (List (List Node))

structure OspfEntry where
  protocol : String
  installed : Bool
  selected : Bool

structure NextHop where
  installed : Bool
  type : String
  outLabelStack : List ℕ
  nexthop : String
  interface : String

structure LfibEntry where
  installed : Bool
  nexthops : List NextHop

/-- `show mpls table json`. A label that is absent has no next hops and is not installed. -/
abbrev Lfib := String → LfibEntry

structure Rib where
  peer : Option String
  sid : Option String

structure Response where
  intent : String
  nodes : List Node

/-- How a list of commands ends: all of them are executed, or only some before an exception. -/
inductive Outcome where
  | done
  | failed (executed : ℕ) (error : Error)

structure Round where
  lfib : Node → Lfib
  responses : List Response
  jobs : Outcome

structure Tick where
  plan : Option Plan
  active : Node → Node → Except Error Bool
  edges : Except Error (Node → Node → Bool)
  -- whether the edges still count as recent when a direction is looked at
  recent : String → Bool
  ribs : Node → String → Option Rib
  ospf : Node → ℕ → Except Error (String → List OspfEntry)
  -- the words of each line of `show mpls ldp ipv4 binding`
  bindings : Node → Except Error (List (List String))
  lfib : Node → Except Error Lfib
  responses : List Response
  configure : String → Except Error Unit
  monotonic : String → ℤ
  jobs : Outcome
  n3 : Outcome
  rounds : List Round

/-! ### State -/

inductive Status where
  | ready
  | pending
  | error
  deriving DecidableEq, Repr

structure DirectionState where
  status : Status
  error : Option String
  planId : Option String
  nodes : Option (List Node)
  backupNodes : Option (List Node)
  steering : Option Args
  deriving DecidableEq

/-- The last command that was executed for a process, a table and a target. -/
abbrev Kernel := ℕ × String × String → Option Args

structure Pcep where
  policy : String → Option (List Node)
  requestedAt : String → ℤ

/-- The `Workloads` object and the kernel. `log` has the lists of `apply_steering` so far, which
nothing reads. -/
structure State where
  installed : String → Option Args
  states : String → Option DirectionState
  pcep : Pcep
  kernel : Kernel
  log : List (Ledger.Batch String)

def State.initial : State where
  installed := fun _ => none
  states := fun _ => none
  pcep := ⟨fun _ => none, fun _ => 0⟩
  kernel := fun _ => none
  log := []

/-! ### Commands -/

/-- The table and the target of `ip route replace`, in the three forms that are used. -/
def routeSlot : Args → Option (String × String)
  | "ip" :: "route" :: "replace" :: "table" :: table :: target :: _ => some (table, target)
  | "ip" :: "route" :: "replace" :: "unreachable" :: target :: "table" :: table :: _ =>
    some (table, target)
  | "ip" :: "route" :: "replace" :: target :: "table" :: table :: _ => some (table, target)
  | _ => none

def Kernel.execute (kernel : Kernel) (job : Job) : Kernel :=
  match routeSlot job.args with
  | some (table, target) => update kernel (job.pid, table, target) (some job.args)
  | none => kernel

def runJobs (kernel : Kernel) (operations : List Job) (outcome : Outcome) :
    Except Error Unit × Kernel :=
  if operations.isEmpty then (.ok (), kernel)
  else match outcome with
    | .done => (.ok (), operations.foldl Kernel.execute kernel)
    | .failed executed error => (.error error, (operations.take executed).foldl Kernel.execute kernel)

/-- The command that takes a route away without opening a way around it. -/
def unreachable (flow : Flow) (d : Direction) : Args :=
  ["ip", "route", "replace", "unreachable", d.target ++ "/32", "table", toString flow.table]

def second (nodes : List Node) : Except Error Node :=
  match nodes[1]? with
  | some node => .ok node
  | none => .error ⟨.index, "list index out of range"⟩

def links (nodes : List Node) : List (Node × Node) := nodes.zip nodes.tail

def segments (fabric : Fabric) (nodes : List Node) (sid : String) : Except Error (List String) := do
  let locators ← nodes.tail.dropLast.mapM fabric.locator
  return locators.map (· ++ "1") ++ [sid]

def isDigits (text : String) : Bool := !text.isEmpty && text.toList.all Char.isDigit

/-- A line of the label bindings is about the remote router and comes from the first hop. -/
def bindsRemote (fabric : Fabric) (d : Direction) (first : Node) (words : List String) :
    Except Error Bool :=
  match words with
  | "ipv4" :: destination :: neighbor :: _ :: label :: _ => do
    if destination ≠ (← fabric.loopback d.remote) ++ "/32" then return false
    else return neighbor == (← fabric.loopback first) && isDigits label
  | _ => .ok false

def ldpLabel (fabric : Fabric) (tick : Tick) (d : Direction) (first : Node) :
    Except Error String := do
  let lines ← tick.bindings d.node
  match ← lines.findM? (bindsRemote fabric d first) with
  | some words => return words.getD 4 ""
  | none => raise "LDP label for the next hop is not ready"

/-- The service SID of a direction over `evpn-srv6`. -/
def serviceSid (fabric : Fabric) (tick : Tick) (d : Direction) : Except Error String := do
  let locator ← fabric.locator d.remote
  match tick.ribs d.node (d.target ++ "/32") with
  | none => raise "EVPN Type-5 route with live SRv6 Service SID not received"
  | some rib =>
    if rib.peer ≠ some (locator ++ "ffff") then
      raise "EVPN Type-5 route with live SRv6 Service SID not received"
    else match rib.sid with
      | some sid => return sid
      | none => .error ⟨.key, "'sid'"⟩

def routeTail (fabric : Fabric) (tick : Tick) (flow : Flow) (d : Direction) (nodes : List Node)
    (first : Node) (interface hop : String) : Except Error Args :=
  match flow.carrier with
  | .evpn => do return ["via", ← fabric.svi d.remote, "dev", "br100"]
  | .srv6 | .evpnSrv6 => do
    let sid ← if flow.carrier = .evpnSrv6 then serviceSid fabric tick d
      else (fabric.locator d.remote).map (· ++ "d")
    let path ← segments fabric nodes sid
    if 16 < path.length then raise "SRv6 workload path exceeds configured 16-segment bound"
    else return ["encap", "seg6", "mode", "encap", "segs", ",".intercalate path, "dev", "sr0"]
  | .pcep => .ok ["encap", "mpls", toString flow.bindingSid, "dev", "lo"]
  | .ldp => do
    return ["encap", "mpls", ← ldpLabel fabric tick d first, "via", "inet", hop, "dev", interface]
  | _ => do
    let sids ← (nodes.drop 2).mapM fabric.sid
    if sids.isEmpty ∨ 32 < nodes.length then
      raise "SR-MPLS workload path has unsupported label depth"
    else return ["encap", "mpls", "/".intercalate (sids.map toString), "via", "inet", hop, "dev",
      interface]

def route (fabric : Fabric) (tick : Tick) (flow : Flow) (d : Direction) (nodes : List Node) :
    Except Error Args := do
  let first ← second nodes
  let interface ← fabric.interface d.node first
  let hop ← fabric.hop d.node first
  let tail ← routeTail fabric tick flow d nodes first interface hop
  return ["ip", "route", "replace", "table", toString flow.table, d.target ++ "/32"] ++ tail

/-! ### Segment routing policies -/

def NextHop.follows (fabric : Fabric) (d : Direction) (nodes : List Node) (expected : List ℕ)
    (n : NextHop) : Except Error Bool :=
  if n.installed && n.type == "SR-TE" && n.outLabelStack == expected then do
    let first ← second nodes
    if n.nexthop ≠ (← fabric.hop d.node first) then return false
    else return n.interface == (← fabric.interface d.node first)
  else .ok false

def pcepInstalled (fabric : Fabric) (responses : List Response) (flow : Flow) (d : Direction)
    (nodes : List Node) (lfib : Lfib) : Except Error Bool := do
  let expected ← (nodes.drop 2).mapM fabric.sid
  let entry := lfib (toString flow.bindingSid)
  let answered := responses.any fun v => v.intent == "work-" ++ d.id && v.nodes == nodes
  if answered && entry.installed then entry.nexthops.anyM (NextHop.follows fabric d nodes expected)
  else return false

def ensurePcep (fabric : Fabric) (tick : Tick) (flow : Flow) (d : Direction) (nodes : List Node)
    (lfib : Lfib) (pcep : Pcep) : Except Error Bool × Pcep :=
  match pcepInstalled fabric tick.responses flow d nodes lfib with
  | .error error => (.error error, pcep)
  | .ok installed =>
    if pcep.policy d.id ≠ some nodes ∨
        installed = false ∧ 20 < tick.monotonic d.id - pcep.requestedAt d.id then
      match tick.configure d.id with
      | .error error => (.error error, pcep)
      | .ok () => (.ok false,
        ⟨update pcep.policy d.id (some nodes), update pcep.requestedAt d.id (tick.monotonic d.id)⟩)
    else (.ok installed, pcep)

def waiting : String := "waiting for PCRep and installed binding SID matching the path"

/-! ### One direction -/

/-- The checks of a committed path against the contacts and the advertised links. -/
def checkPath (tick : Tick) (edges : Node → Node → Bool) (bgpError : Option String) (flow : Flow)
    (nodes : List Node) : Except Error Unit := do
  if ¬ (← (links nodes).allM fun link => tick.active link.1 link.2) then
    raise "committed path contains an inactive contact"
  else if (flow.carrier = .srMpls ∨ flow.carrier = .pcep) ∧
      (links nodes).all (fun link => edges link.1 link.2) = false then
    raise (bgpError.getD "path has not converged in live BGP-LS")
  else return ()

def awaitPcep (fabric : Fabric) (tick : Tick) (flow : Flow) (d : Direction) (nodes : List Node)
    (pcep : Pcep) : Except Error Unit × Pcep :=
  if flow.carrier ≠ .pcep then (.ok (), pcep)
  else match tick.lfib d.node with
    | .error error => (.error error, pcep)
    | .ok lfib =>
      match ensurePcep fabric tick flow d nodes lfib pcep with
      | (.error error, pcep) => (.error error, pcep)
      | (.ok true, pcep) => (.ok (), pcep)
      | (.ok false, pcep) => (raise waiting, pcep)

/-- The command for a direction with a committed path; a native direction has none. -/
def steer (fabric : Fabric) (tick : Tick) (edges : Node → Node → Bool) (bgpError : Option String)
    (flow : Flow) (d : Direction) (nodes : List Node) (pcep : Pcep) :
    Except Error (Option Args) × Pcep :=
  match checkPath tick edges bgpError flow nodes with
  | .error error => (.error error, pcep)
  | .ok () =>
    match awaitPcep fabric tick flow d nodes pcep with
    | (.error error, pcep) => (.error error, pcep)
    | (.ok (), pcep) =>
      (if flow.carrier = .native then .ok none else (route fabric tick flow d nodes).map some, pcep)

/-- A route that the distributed routing protocol has installed or selected. -/
def ospfReady (tick : Tick) (flow : Flow) (d : Direction) : Except Error Unit := do
  let routes ← tick.ospf d.node flow.family
  let family := if flow.family = 6 then "ospf6" else "ospf"
  let entries := routes (d.target ++ "/" ++ toString flow.prefixLength)
  if entries.any fun entry => entry.protocol == family && (entry.installed || entry.selected) then
    return ()
  else raise (family ++ " service route is not installed")

/-- The `try` block for a direction: its state so far, and its command or the exception. -/
def resolve (fabric : Fabric) (tick : Tick) (edges : Node → Node → Bool) (bgpError : Option String)
    (flow : Flow) (d : Direction) (pcep : Pcep) :
    DirectionState × Except Error (Option Args) × Pcep :=
  let state : DirectionState := ⟨.pending, none, none, none, none, none⟩
  if flow.control = .distributed then (state, (ospfReady tick flow d).map fun _ => none, pcep)
  else match tick.plan with
    | none => (state, raise "controller has no committed service path", pcep)
    | some plan =>
      match plan.paths ("work-" ++ d.id) with
      | none => (state, raise "controller has no committed service path", pcep)
      | some [] => (state, .error ⟨.index, "list index out of range"⟩, pcep)
      | some (nodes :: rest) =>
        ({ state with
            planId := some plan.id
            nodes := some nodes
            backupNodes := some (rest.headD []) },
          steer fabric tick edges bgpError flow d nodes pcep)

def Error.caught (error : Error) : Bool :=
  error.kind ∈ [Kind.value, Kind.runtime, Kind.os, Kind.key, Kind.index]

def lastChars (n : ℕ) (text : String) : String :=
  String.ofList (text.toList.drop (text.toList.length - n))

structure Collector where
  state : State
  operations : List Job
  applied : List (String × Option Args)

def visit (fabric : Fabric) (tick : Tick) (edges : Node → Node → Bool) (bgpError : Option String)
    (acc : Collector) (x : Flow × Direction) : Except Error Unit × Collector :=
  let (flow, d) := x
  let s := acc.state
  let recentEdges := if tick.recent d.id then edges else fun _ _ => false
  let (state, result, pcep) := resolve fabric tick recentEdges bgpError flow d s.pcep
  let store (state : DirectionState) : State :=
    { s with pcep := pcep, states := update s.states d.id (some state) }
  match result with
  | .ok none => (.ok (), { acc with state := store { state with status := .ready } })
  | .ok (some args) =>
    let ready := store { state with status := .ready, steering := some args }
    if s.installed d.id ≠ some args ∨ flow.carrier = .evpnSrv6 then
      (.ok (), ⟨ready, acc.operations ++ [⟨fabric.pid d.node, args⟩],
        acc.applied ++ [(d.id, some args)]⟩)
    else (.ok (), { acc with state := ready })
  | .error error =>
    if error.caught then
      let pending := store { state with status := .pending, error := some (lastChars 300 error.text) }
      if (s.installed d.id).isSome then
        (.ok (), ⟨pending, acc.operations ++ [⟨fabric.pid d.node, unreachable flow d⟩],
          acc.applied ++ [(d.id, none)]⟩)
      else (.ok (), { acc with state := pending })
    else (.error error, { acc with state := { s with pcep := pcep } })

/-- The loop over all directions, which an exception that is not caught ends. -/
def visitAll (fabric : Fabric) (tick : Tick) (edges : Node → Node → Bool) (bgpError : Option String) :
    List (Flow × Direction) → Collector → Except Error Unit × Collector
  | [], acc => (.ok (), acc)
  | x :: rest, acc =>
    match visit fabric tick edges bgpError acc x with
    | (.ok (), acc) => visitAll fabric tick edges bgpError rest acc
    | (.error error, acc) => (.error error, acc)

/-! ### The lists of commands -/

def batch (operations : List Job) (applied : List (String × Option Args)) (outcome : Outcome) :
    Ledger.Batch String where
  entries := applied.map fun a => (a.1, a.2.isSome)
  failed := if operations.isEmpty then none else
    match outcome with
    | .done => none
    | .failed executed _ => some executed

/-- What `installed` is after a list that has come to its end. -/
def record (installed : String → Option Args) (applied : List (String × Option Args)) :
    String → Option Args :=
  Ledger.write installed applied

def State.markFailed (error : Error) (s : State) (key : String) : State :=
  { s with states := update s.states key ((s.states key).map fun state =>
      { state with
        status := .error
        error := some ("steering write failed: " ++ lastChars 250 error.text) }) }

def applySteering (operations : List Job) (applied : List (String × Option Args))
    (outcome : Outcome) (s : State) : Except Error Unit × State :=
  let log := s.log ++ [batch operations applied outcome]
  match runJobs s.kernel operations outcome with
  | (.ok (), kernel) =>
    (.ok (), { s with kernel := kernel, installed := record s.installed applied, log := log })
  | (.error error, kernel) =>
    let s := { s with kernel := kernel, log := log }
    if error.kind ∈ [Kind.value, Kind.runtime, Kind.os] then
      (.error error, (applied.map Prod.fst).foldl (State.markFailed error) s)
    else (.error error, s)

/-! ### The N3 service -/

def primaryNodes (plan : Option Plan) (intent : String) : Except Error (List Node) :=
  match plan with
  | none => .error ⟨.type, "'NoneType' object is not subscriptable"⟩
  | some plan =>
    match plan.paths intent with
    | none => .error ⟨.key, intent⟩
    | some [] => .error ⟨.index, "list index out of range"⟩
    | some (nodes :: _) => .ok nodes

def n3Sid (fabric : Fabric) (tick : Tick) (node remote : Node) (target : String) :
    Except Error String :=
  match tick.ribs node (target ++ "/32") with
  | none => raise "N3 EVPN route absent"
  | some rib => do
    if rib.peer ≠ some ((← fabric.locator remote) ++ "ffff") then raise "N3 EVPN route absent"
    else match rib.sid with
      | none => .error ⟨.key, "'sid'"⟩
      | some sid => return sid

def n3Route (fabric : Fabric) (tick : Tick) (node remote : Node) (target intent : String) :
    Except Error Args := do
  let nodes ← primaryNodes tick.plan intent
  let active ← (links nodes).allM fun link => tick.active link.1 link.2
  if active = false then raise "inactive N3 contact"
  else
    let sid ← n3Sid fabric tick node remote target
    let path ← segments fabric nodes sid
    if 16 < path.length then raise "N3 SRH exceeds 16 segments"
    else return ["ip", "route", "replace", target ++ "/32", "table", "300", "encap", "seg6", "mode",
      "encap", "segs", ",".intercalate path, "dev", "sr0"]

/-- The command, or the unreachable route for an exception that is caught. -/
def n3Job (fabric : Fabric) (tick : Tick) (x : Node × Node × String × String) : Except Error Job :=
  let (node, remote, target, intent) := x
  match n3Route fabric tick node remote target intent with
  | .ok args => .ok ⟨fabric.pid node, args⟩
  | .error error =>
    if error.kind ∈ [Kind.value, Kind.key, Kind.type, Kind.index] then
      .ok ⟨fabric.pid node,
        ["ip", "route", "replace", "unreachable", target ++ "/32", "table", "300"]⟩
    else .error error

def updateN3 (fabric : Fabric) (tick : Tick) (s : State) : Except Error Unit × State :=
  if fabric.n3Evpn = false then (.ok (), s)
  else match fabric.service.mapM (n3Job fabric tick) with
    | .error error => (.error error, s)
    | .ok operations =>
      let (result, kernel) := runJobs s.kernel operations tick.n3
      (result, { s with kernel := kernel })

/-! ### Policies that are installed late -/

def settled (fabric : Fabric) (tick : Tick) (round : Round) (s : State) (x : Flow × Direction) :
    Except Error (Option (Flow × Direction × Args)) :=
  match (s.states x.2.id).bind DirectionState.nodes with
  | none => .error ⟨.key, "'nodes'"⟩
  | some nodes => do
    if ← pcepInstalled fabric round.responses x.1 x.2 nodes (round.lfib x.2.node) then
      return some (x.1, x.2, ← route fabric tick x.1 x.2 nodes)
    else return none

def State.markReady (s : State) (x : Flow × Direction × Args) : State :=
  { s with states := update s.states x.2.1.id ((s.states x.2.1.id).map fun state =>
      { state with status := .ready, error := none, steering := some x.2.2 }) }

def settleRounds (fabric : Fabric) (tick : Tick) :
    List Round → List (Flow × Direction) → State → Except Error Unit × State
  | [], _, s => (.ok (), s)
  | round :: rounds, pending, s =>
    if pending.isEmpty then (.ok (), s)
    else match pending.mapM (settled fabric tick round s) with
      | .error error => (.error error, s)
      | .ok results =>
        let ready := results.reduceOption
        if ready.isEmpty then settleRounds fabric tick rounds pending s
        else
          let operations := ready.map fun x => ⟨fabric.pid x.2.1.node, x.2.2⟩
          let applied := ready.map fun x => (x.2.1.id, some x.2.2)
          match applySteering operations applied round.jobs s with
          | (.error error, s) => (.error error, s)
          | (.ok (), s) =>
            settleRounds fabric tick rounds
              (pending.filter fun x => x ∉ ready.map fun y => (y.1, y.2.1))
              (ready.foldl State.markReady s)

def settlePcep (fabric : Fabric) (tick : Tick) (flows : List Flow) (s : State) :
    Except Error Unit × State :=
  let pending := (allDirections flows).filter fun x =>
    x.1.carrier = .pcep ∧ (s.states x.2.id).bind DirectionState.error = some waiting
  settleRounds fabric tick tick.rounds pending s

/-! ### One update -/

def conclude (fabric : Fabric) (flows : List Flow) (tick : Tick) (acc : Collector) :
    Except Error Unit × State :=
  match applySteering acc.operations acc.applied tick.jobs acc.state with
  | (.error error, s) => (.error error, s)
  | (.ok (), s) =>
    match updateN3 fabric tick s with
    | (.error error, s) => (.error error, s)
    | (.ok (), s) => settlePcep fabric tick flows s

def update (fabric : Fabric) (flows : List Flow) (s : State) (tick : Tick) :
    Except Error Unit × State :=
  let visits (edges : Node → Node → Bool) (bgpError : Option String) : Except Error Unit × State :=
    match visitAll fabric tick edges bgpError (allDirections flows) ⟨s, [], []⟩ with
    | (.error error, acc) => (.error error, acc.state)
    | (.ok (), acc) => conclude fabric flows tick acc
  match tick.edges with
  | .ok edges => visits edges none
  | .error error =>
    if error.kind ∈ [Kind.value, Kind.runtime, Kind.os] then
      visits (fun _ _ => false) (if error.text = "" then none else some error.text)
    else (.error error, s)

def run (fabric : Fabric) (flows : List Flow) (ticks : List Tick) : State :=
  ticks.foldl (fun s tick => (update fabric flows s tick).2) State.initial

end StarFabric.Workloads

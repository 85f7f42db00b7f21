import StarFabric.Evpn.Speaker

/-!
# A fabric of speakers

Any number of sites, each with a speaker, and sessions between all of them. The network carries
the octets of a session in order and with arbitrary delays, in pieces of any size (`carry`). What a
speaker does by itself are its own events.

A fabric starts when all sessions have just been established: every site has announced what it
exports before any frame was seen.
-/

namespace StarFabric.Evpn

open Py Wire

structure Fabric where
  sites : List Address
  config : Address → Config

abbrev Net := Address → Speaker

def Fabric.startSite (f : Fabric) (i : Address) (exported : Exports) : Speaker :=
  { Speaker.initial with
    sessions := fun j => if j ∈ f.sites ∧ j ≠ i then some ⟨.established, []⟩ else none
    peerRoutes := fun j => if j ∈ f.sites ∧ j ≠ i then some fun _ => none else none
    advertised := fun j => if j ∈ f.sites ∧ j ≠ i then some exported else none
    outgoing := fun j => if j ∈ f.sites ∧ j ≠ i then exported.flatMap fun e => e.2.1 else [] }

def Fabric.start (f : Fabric) : Option Net :=
  if ∀ i ∈ f.sites, (exports (f.config i) ∅).toOption.isSome then
    some fun i => f.startSite i ((exports (f.config i) ∅).toOption.getD [])
  else none

inductive NetEvent where
  | frame (site : Address) (evi : ℕ) (mac : Octets 6) (now : ℤ)
  | tick (site : Address) (now : ℤ)
  | send (site peer : Address)
  | keepalive (site peer : Address)
  | carry (site peer : Address) (count : ℕ)
  | read (site peer : Address) (now : ℤ)

def Fabric.at (f : Fabric) (net : Net) (i : Address) (e : Event) : Option Net :=
  if i ∈ f.sites then ((net i).step (f.config i) e).map (Function.update net i) else none

def Fabric.step (f : Fabric) (net : Net) : NetEvent → Option Net
  | .frame site evi mac now => f.at net site (.frame evi mac now)
  | .tick site now => f.at net site (.tick now)
  | .send site peer => f.at net site (.send peer)
  | .keepalive site peer => f.at net site (.keepalive peer)
  | .carry site peer count =>
    let octets := ((net site).outgoing peer).take count
    let sender := { net site with
      outgoing := Function.update (net site).outgoing peer (((net site).outgoing peer).drop count) }
    f.at (Function.update net site sender) peer (.arrive site octets)
  | .read site peer now => f.at net site (.read peer now)

def Fabric.run (f : Fabric) (net : Net) (events : List NetEvent) : Option Net :=
  events.foldlM f.step net

/-! ### What is on its way -/

def messages : ℕ → Bytes → List (UInt8 × Bytes)
  | 0, _ => []
  | n + 1, data =>
    match receive data with
    | .ok (some (kind, body, rest)) => (kind, body) :: messages n rest
    | _ => []

def Net.stream (net : Net) (i j : Address) : Bytes :=
  (((net j).sessions i).map Session.received).getD [] ++ (net i).outgoing j

def Net.pending (net : Net) (i j : Address) : List (UInt8 × Bytes) :=
  messages (net.stream i j).length (net.stream i j)

def Fabric.Quiet (f : Fabric) (net : Net) : Prop :=
  ∀ i ∈ f.sites, ∀ j ∈ f.sites, i ≠ j → ∀ message ∈ net.pending i j, message.1 ≠ 2

def Mentions (key : Key) (message : UInt8 × Bytes) : Bool :=
  message.1 == 2 && match readUpdate message.2 with
    | .ok (routes, withdrawn) => (routes.map Route.key).contains key || withdrawn.contains key
    | .error _ => false

/-- What a site advertises to a peer for a key is the export of what it has learned. -/
def Fabric.Published (f : Fabric) (net : Net) (i j : Address) (key : Key) : Prop :=
  let exported := ((net i).macs.lookup key).bind fun m =>
    (macExport (f.config i) m).toOption.map Prod.snd
  exported.isSome = true ∧ ((net i).advertised j).bind (fun adv => adv.lookup key) = exported

def Net.Delivered (net : Net) (i j : Address) (key : Key) : Prop :=
  ∀ message ∈ net.pending i j, Mentions key message = false

end StarFabric.Evpn

import StarFabric.Model.Topology
import StarFabric.Durable

/-!
# The topology store

`internal/topology/store.go`. A `Store` owns a versioned snapshot, the ids of the events it has seen
and the last sequence number of each subject. The clock reading and the outcome of writing the state
file are inputs of a call (`CallEnv`). The state file itself is part of the state
(`PersistedStore`).
-/

namespace StarFabric.Topology

open Go Durable Function

structure PersistentState where
  snapshot : TopologySnapshot
  seenEvents : String → Option Time
  lastSequences : String → Option UInt64

structure Store where
  snapshot : TopologySnapshot
  seenEvents : String → Option Time
  lastSequences : String → Option UInt64
  persistPath : String

structure PersistedStore where
  store : Store
  file : Option PersistentState

/-- What a call finds outside: the clock, and the step of the file write that
fails, if one does. -/
structure CallEnv where
  now : Time
  fault : Option WriteFault := none

structure Reply where
  snapshot : TopologySnapshot
  err : Option String

def errDuplicateEvent : String := "duplicate topology event"
def errStaleEvent : String := "stale or out-of-order topology event"
def errFutureEvent : String := "topology event is not effective yet"
def errMalformed : String := "event_id, subject, and positive sequence are required"

def zeroSnapshot : TopologySnapshot := { version := 0, nodes := [], links := [] }

/-- The last sequence number of a subject, `0` when there is none. -/
def Store.lastSequence (s : Store) (subject : String) : UInt64 :=
  (s.lastSequences subject).getD 0

/-! ### Construction -/

def Store.new (initial : TopologySnapshot) (persistPath : String) : Except String Store :=
  match initial.validate with
  | .error e => .error e
  | .ok () => .ok ⟨initial, fun _ => none, fun _ => none, persistPath⟩

/-! ### Mutation -/

/-- The last three assignments of `mutate` to a link. -/
def touchLink (event : TopologyEvent) (link : Link) : Link :=
  let link := if event.type = .linkUp then { link with operationalUp := true } else link
  let link := if event.type = .linkDown then { link with operationalUp := false } else link
  if event.observedAt.isZero then link else { link with telemetryAt := event.observedAt }

def mutateLink (snapshot : TopologySnapshot) (event : TopologyEvent) :
    Except String TopologySnapshot :=
  match event.link with
  | none => .error "link event requires link"
  | some link =>
    match snapshot.links.findIdx? fun l => l.id = link.id with
    | none =>
      -- an unknown link may be announced by an update or by coming up
      if event.type ≠ .linkUpdate ∧ event.type ≠ .linkUp then
        .error ("unknown link " ++ quote link.id)
      else .ok { snapshot with links := snapshot.links ++ [touchLink event link] }
    | some idx =>
      .ok { snapshot with
        links := snapshot.links.modify idx fun old =>
          -- only an update replaces the attributes of the link
          touchLink event (if event.type = .linkUpdate then link else old) }

def mutateNode (snapshot : TopologySnapshot) (event : TopologyEvent) :
    Except String TopologySnapshot :=
  match event.node with
  | none => .error "node event requires node"
  | some node =>
    match snapshot.nodes.findIdx? fun n => n.id = node.id with
    | none => .error ("unknown node " ++ quote node.id)
    | some idx =>
      .ok { snapshot with
        nodes := snapshot.nodes.modify idx fun old =>
          -- the other fields of the event's node are not used
          { old with enabled := event.type = .nodeUp } }

def mutate (snapshot : TopologySnapshot) (event : TopologyEvent) : Except String TopologySnapshot :=
  match event.type with
  | .linkUp | .linkDown | .linkUpdate => mutateLink snapshot event
  | .nodeUp | .nodeDown => mutateNode snapshot event
  | .other name => .error ("unsupported event type " ++ quote name)

/-! ### Persistence -/

/-- `persistLocked`: the error, if any, and the state file afterwards. -/
def persistLocked (env : CallEnv) (s : Store) (file : Option PersistentState) :
    Option String × Option PersistentState :=
  writeFile s.persistPath ⟨s.snapshot, s.seenEvents, s.lastSequences⟩ env.fault file

/-! ### The calls -/

def replace (env : CallEnv) (p : PersistedStore) (snapshot : TopologySnapshot) :
    PersistedStore × Option String :=
  match snapshot.validate with
  | .error e => (p, some e)
  | .ok () =>
    if snapshot.version ≤ p.store.snapshot.version then
      (p, some (errStaleEvent ++ ": version " ++ toString snapshot.version ++
        " is not newer than " ++ toString p.store.snapshot.version))
    else
      let old := p.store.snapshot
      let next := { p.store with snapshot := snapshot }
      match persistLocked env next p.file with
      | (none, file) => (⟨next, file⟩, none)
      -- the memory goes back, whatever has become of the file
      | (some e, file) => (⟨{ next with snapshot := old }, file⟩, some e)

/-- The part of `Apply` after its guards: publish, persist, and undo by hand when
the state file cannot be written. -/
def publish (env : CallEnv) (p : PersistedStore) (event : TopologyEvent)
    (snapshot : TopologySnapshot) : PersistedStore × Reply :=
  let previous := p.store.snapshot
  let previousSequence := p.store.lastSequences event.subject
  let next : Store := { p.store with
    snapshot := snapshot
    seenEvents := update p.store.seenEvents event.eventID (some env.now)
    lastSequences := update p.store.lastSequences event.subject (some event.sequence) }
  match persistLocked env next p.file with
  | (none, file) => (⟨next, file⟩, ⟨snapshot, none⟩)
  | (some e, file) =>
    let undone : Store := { next with
      snapshot := previous
      -- the event may be sent again
      seenEvents := update next.seenEvents event.eventID none
      lastSequences := match previousSequence with
        | some sequence =>
          update next.lastSequences event.subject (some sequence)
        | none => update next.lastSequences event.subject none }
    (⟨undone, file⟩, ⟨undone.snapshot, some e⟩)

def apply (env : CallEnv) (p : PersistedStore) (event : TopologyEvent) : PersistedStore × Reply :=
  let s := p.store
  if event.eventID = "" ∨ event.subject = "" ∨ event.sequence = 0 then
    (p, ⟨zeroSnapshot, some errMalformed⟩)
  else if (s.seenEvents event.eventID).isSome then (p, ⟨s.snapshot, some errDuplicateEvent⟩)
  else if event.sequence ≤ s.lastSequence event.subject then
    (p, ⟨s.snapshot, some (errStaleEvent ++ ": subject=" ++ event.subject ++ " sequence=" ++
      toString event.sequence ++ " last=" ++ toString (s.lastSequence event.subject))⟩)
  -- an event without a time is effective at once
  else if !event.effectiveAt.isZero ∧ env.now < event.effectiveAt then
    (p, ⟨s.snapshot, some errFutureEvent⟩)
  else
    -- the snapshot is stamped before it is changed and validated
    match mutate { s.snapshot with
        version := s.snapshot.version + 1, generatedAt := env.now,
        validFrom := env.now } event with
    | .error e => (p, ⟨s.snapshot, some e⟩)
    | .ok snapshot =>
      match snapshot.validate with
      | .error e => (p, ⟨s.snapshot, some e⟩)
      | .ok () => publish env p event snapshot

structure BatchState where
  next : TopologySnapshot
  seen : String → Option Time
  sequences : String → Option UInt64

def batchStep (now : Time) (b : BatchState) (event : TopologyEvent) : Except String BatchState :=
  if event.eventID = "" ∨ event.subject = "" ∨ event.sequence = 0 then .error errMalformed
  else if (b.seen event.eventID).isSome then .error errDuplicateEvent
  else if event.sequence ≤ (b.sequences event.subject).getD 0 then .error errStaleEvent
  -- no test for the zero time here: it lies before every clock reading
  else if now < event.effectiveAt then .error errFutureEvent
  -- a check that `Apply` does not have
  else if (∃ link ∈ event.link, link.id ≠ event.subject) ∨
      (∃ node ∈ event.node, node.id ≠ event.subject) then
    .error "event subject must match its object id"
  else
    match mutate b.next event with
    | .error e => .error e
    | .ok next =>
      .ok ⟨next, update b.seen event.eventID (some now),
        update b.sequences event.subject (some event.sequence)⟩

/-- The event ids that `ApplyBatch` keeps: those seen in the last five minutes. -/
def recentEvents (now : Time) (seenEvents : String → Option Time) : String → Option Time :=
  fun id => (seenEvents id).filter fun seenAt => !(seenAt < now - 5 * minute)

def applyBatch (env : CallEnv) (p : PersistedStore) (events : List TopologyEvent) :
    PersistedStore × Reply :=
  let s := p.store
  if events = [] ∨ 10000 < events.length then
    (p, ⟨zeroSnapshot, some "event batch must contain 1–10000 events"⟩)
  else
    let start : BatchState := ⟨s.snapshot, recentEvents env.now s.seenEvents, s.lastSequences⟩
    match events.foldlM (batchStep env.now) start with
    | .error e => (p, ⟨s.snapshot, some e⟩)
    | .ok b =>
      let next := { b.next with
        version := b.next.version + 1, generatedAt := env.now, validFrom := env.now }
      match next.validate with
      | .error e => (p, ⟨s.snapshot, some e⟩)
      | .ok () =>
        let published : Store :=
          { s with snapshot := next, seenEvents := b.seen, lastSequences := b.sequences }
        match persistLocked env published p.file with
        | (none, file) => (⟨published, file⟩, ⟨next, none⟩)
        -- nothing was published yet, so there is nothing to undo
        | (some e, file) => (⟨s, file⟩, ⟨s.snapshot, some e⟩)

end StarFabric.Topology

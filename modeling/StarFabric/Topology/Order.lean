import StarFabric.Topology.Atomic

/-!
# Per-object order of accepted events

The store guards events by their subject, and changes the object they carry. The two agree when the
subject is the id of the object (`NamesItsObject`), which `apply` does not check. When every event
names its object, the accepted events of one object carry increasing sequence numbers along every
run, and the stored object reflects the newest of them (`OrderInv`).
-/

namespace StarFabric.Topology

open Go Durable ExceptFold Keyed List Option

/-! ### Objects -/

inductive Object where
  | link (id : String)
  | node (id : String)
  deriving DecidableEq, Repr

def Object.id : Object → String
  | link id => id
  | node id => id

def object (event : TopologyEvent) : Option Object :=
  match event.type with
  | .linkUp | .linkDown | .linkUpdate => event.link.map fun link => .link link.id
  | .nodeUp | .nodeDown => event.node.map fun node => .node node.id
  | .other _ => none

def NamesItsObject (event : TopologyEvent) : Prop :=
  ∀ x, object event = some x → x.id = event.subject

/-- The stored link carries what the event said about it. -/
structure LinkReflects (event : TopologyEvent) (stored : Link) : Prop where
  update : event.type = .linkUpdate → ∃ link, event.link = some link ∧
    stored = touchLink event link
  up : event.type = .linkUp → stored.operationalUp = true
  down : event.type = .linkDown → stored.operationalUp = false
  telemetry : event.observedAt.isZero = false → stored.telemetryAt = event.observedAt

def Reflects (s : TopologySnapshot) (event : TopologyEvent) : Prop :=
  match object event with
  | some (.link id) => ∃ stored, lookup Link.id s.links id = some stored ∧
      LinkReflects event stored
  | some (.node id) => ∃ stored, lookup Node.id s.nodes id = some stored ∧
      stored.enabled = decide (event.type = .nodeUp)
  | none => False

variable {event : TopologyEvent}

theorem linkReflects_touchLink {base link : Link} (hlink : event.link = some link)
    (hbase : event.type = .linkUpdate → base = link) :
    LinkReflects event (touchLink event base) := by
  refine ⟨fun h => ⟨link, hlink, by rw [hbase h]⟩, fun h => ?_, fun h => ?_, fun h => ?_⟩
  · cases hz : event.observedAt.isZero <;> simp [touchLink, h, hz]
  · cases hz : event.observedAt.isZero <;> simp [touchLink, h, hz]
  · simp [touchLink, h]

theorem object_link {link : Link} (htype : event.type.IsLink) (hlink : event.link = some link) :
    object event = some (.link link.id) := by
  unfold object
  cases h : event.type <;> rw [h] at htype <;> first | exact htype.elim | simp [hlink]

theorem object_node {node : Node} (htype : event.type.IsNode) (hnode : event.node = some node) :
    object event = some (.node node.id) := by
  unfold object
  cases h : event.type <;> rw [h] at htype <;> first | exact htype.elim | simp [hnode]

variable {s : TopologySnapshot}

theorem mutate_reflects {t : TopologySnapshot} (h : mutate s event = .ok t) :
    Reflects t event ∧ ∀ other, object other ≠ object event → Reflects s other →
      Reflects t other := by
  obtain ⟨htype, hlink⟩ | ⟨htype, hnode⟩ := mutate_cases h
  · obtain ⟨link, base, hl, -, hbase, heq, hput⟩ := mutateLink_ok hlink
    have hobj := object_link htype hl
    have hnodes : t.nodes = s.nodes := by rw [heq]
    refine ⟨?_, fun other hne hs => ?_⟩
    · unfold Reflects
      rw [hobj]
      exact ⟨_, hput.self, linkReflects_touchLink hl hbase⟩
    · unfold Reflects at hs ⊢
      rw [hobj] at hne
      split at hs
      · next id heq' =>
        have hid : id ≠ link.id := fun hid => hne (by rw [heq', hid])
        rw [hput.other id hid]
        exact hs
      · rw [hnodes]; exact hs
      · exact hs
  · obtain ⟨node, old, hn, heq, hput⟩ := mutateNode_ok hnode
    have hobj := object_node htype hn
    have hlinks : t.links = s.links := by rw [heq]
    refine ⟨?_, fun other hne hs => ?_⟩
    · unfold Reflects
      rw [hobj]
      exact ⟨_, hput.self, rfl⟩
    · unfold Reflects at hs ⊢
      rw [hobj] at hne
      split at hs
      · rw [hlinks]; exact hs
      · next id heq' =>
        have hid : id ≠ node.id := fun hid => hne (by rw [heq', hid])
        rw [hput.other id hid]
        exact hs
      · exact hs

/-! ### The invariant -/

/-- The events of a log that change one object carry increasing sequence
numbers. -/
def Ordered (log : List TopologyEvent) : Prop :=
  log.Pairwise fun earlier later => ∀ x, object earlier = some x → object later = some x →
    earlier.sequence < later.sequence

/-- `event` is the newest event of the log for its object. -/
def Newest (log : List TopologyEvent) (event : TopologyEvent) : Prop :=
  ∀ other ∈ log, object other = object event → other.sequence ≤ event.sequence

def ReflectsNewest (log : List TopologyEvent) (s : TopologySnapshot) : Prop :=
  ∀ event ∈ log, Newest log event → Reflects s event

/-- The invariant of a run, over the log, the snapshot and the sequence map. -/
structure OrderInv (log : List TopologyEvent) (s : TopologySnapshot)
    (sequences : String → Option UInt64) : Prop where
  bounded : ∀ event ∈ log, event.sequence ≤ (sequences event.subject).getD 0
  named : ∀ event ∈ log, NamesItsObject event
  ordered : Ordered log
  reflected : ReflectsNewest log s

theorem OrderInv.nil (s : TopologySnapshot) (sequences : String → Option UInt64) :
    OrderInv [] s sequences :=
  ⟨by simp, by simp, List.Pairwise.nil, fun _ h => absurd h not_mem_nil⟩

variable {log : List TopologyEvent} {sequences : String → Option UInt64}

/-- The sequence number of an accepted event is above that of every logged event
of the same object: both name the object, so they share the subject the guard
looked at. -/
theorem OrderInv.lt_of_object {other : TopologyEvent} {x : Object} (hinv : OrderInv log s sequences)
    (hname : NamesItsObject event) (hnewer : (sequences event.subject).getD 0 < event.sequence)
    (hother : other ∈ log) (hx : object other = some x) (hx' : object event = some x) :
    other.sequence < event.sequence := by
  have hsubject : other.subject = event.subject :=
    (hinv.named other hother x hx).symm.trans (hname x hx')
  have hle := hinv.bounded other hother
  rw [hsubject] at hle
  exact UInt64.lt_of_le_of_lt hle hnewer

theorem OrderInv.accept {t : TopologySnapshot} (hinv : OrderInv log s sequences)
    (hname : NamesItsObject event) (hnewer : (sequences event.subject).getD 0 < event.sequence)
    (hmutate : mutate s event = .ok t) :
    OrderInv (log ++ [event]) t
      (Function.update sequences event.subject (some event.sequence)) := by
  obtain ⟨hself, hkeep⟩ := mutate_reflects hmutate
  refine ⟨fun e he => ?_, fun e he => ?_, ?_, fun e he hnewest => ?_⟩
  · rw [lastSequence_update]
    rcases mem_append.mp he with hlog | hlast
    · split_ifs with hsub
      · have hle := hinv.bounded e hlog
        rw [hsub] at hle
        exact UInt64.le_of_lt (UInt64.lt_of_le_of_lt hle hnewer)
      · exact hinv.bounded e hlog
    · obtain rfl := mem_singleton.mp hlast
      rw [if_pos rfl]
      exact UInt64.le_refl _
  · rcases mem_append.mp he with hlog | hlast
    · exact hinv.named e hlog
    · exact mem_singleton.mp hlast ▸ hname
  · refine pairwise_append.mpr ⟨hinv.ordered, pairwise_singleton _ _, ?_⟩
    intro earlier hearlier later hlater x hx hx'
    obtain rfl := mem_singleton.mp hlater
    exact hinv.lt_of_object hname hnewer hearlier hx hx'
  · rcases mem_append.mp he with hlog | hlast
    · -- a logged event of the object just changed is no longer the newest
      have hold : Reflects s e :=
        hinv.reflected e hlog fun o ho => hnewest o (mem_append_left _ ho)
      by_cases hobj : object e = object event
      · obtain ⟨x, hx⟩ : ∃ x, object e = some x := by
          unfold Reflects at hold
          split at hold
          exacts [⟨_, by assumption⟩, ⟨_, by assumption⟩, hold.elim]
        have hlt := hinv.lt_of_object hname hnewer hlog hx (hobj ▸ hx)
        have hle := hnewest event (by simp) hobj.symm
        exact absurd hle (UInt64.not_le.mpr hlt)
      · exact hkeep e hobj hold
    · exact mem_singleton.mp hlast ▸ hself

/-! ### Runs -/

def Op.events : Op → List TopologyEvent
  | .apply event => [event]
  | .applyBatch events => events
  | .replace _ => []

structure Logged where
  persisted : PersistedStore
  log : List TopologyEvent

def record (l : Logged) (step : CallEnv × Op) : Logged :=
  let result := call step.1 l.persisted step.2
  ⟨result.1, if result.2 = none then l.log ++ step.2.events else l.log⟩

def runLogged (p : PersistedStore) (steps : List (CallEnv × Op)) : Logged :=
  steps.foldl record ⟨p, []⟩

/-- The call is an event call, and the event handed to `apply` names its object. -/
def Op.Named : Op → Prop
  | .apply event => NamesItsObject event
  | .applyBatch _ => True
  | .replace _ => False

def Logged.Inv (l : Logged) : Prop :=
  OrderInv l.log l.persisted.store.snapshot l.persisted.store.lastSequences

variable {b : BatchState}

theorem BatchAdmitted.names {now : Time} {next : TopologySnapshot}
    (h : BatchAdmitted now b event next) : NamesItsObject event := by
  intro x hx
  unfold object at hx
  split at hx
  all_goals first
    | (obtain ⟨link, hlink, rfl⟩ := map_eq_some_iff.mp hx
       exact h.link_subject link hlink)
    | (obtain ⟨node, hnode, rfl⟩ := map_eq_some_iff.mp hx
       exact h.node_subject node hnode)
    | cases hx

theorem batch_inv {env : CallEnv} {s : Store} {events : List TopologyEvent}
    (hinv : OrderInv log s.snapshot s.lastSequences)
    (hloop : events.foldlM (batchStep env.now) (batchStart env s) = .ok b) :
    OrderInv (log ++ events) b.next b.sequences := by
  refine foldlM_history (P := fun done b => OrderInv done b.next b.sequences) ?_ _ hinv hloop
  intro done event b b' hb hstep
  obtain ⟨next, hadm, rfl⟩ := batchStep_ok hstep
  exact hb.accept hadm.names hadm.newer hadm.mutated

/-- **One call.** A failed call leaves the store and the log; a successful one
accepts its events one after the other. -/
theorem Logged.Inv.step {l : Logged} {step : CallEnv × Op} (hinv : l.Inv)
    (hnamed : step.2.Named) : (record l step).Inv := by
  obtain ⟨env, op⟩ := step
  by_cases hok : (call env l.persisted op).2 = none
  · have hlog : (record l (env, op)).log = l.log ++ op.events := if_pos hok
    unfold Logged.Inv
    rw [hlog]
    cases op with
    | apply event =>
      obtain ⟨snapshot, hadm, hstore⟩ := apply_ok hok
      change OrderInv (l.log ++ [event]) (apply env l.persisted event).1.store.snapshot
        (apply env l.persisted event).1.store.lastSequences
      rw [hstore]
      -- the header fields written before `mutate` are not looked at
      have hinv' : OrderInv l.log { l.persisted.store.snapshot with
          version := l.persisted.store.snapshot.version + 1, generatedAt := env.now,
          validFrom := env.now } l.persisted.store.lastSequences :=
        ⟨hinv.bounded, hinv.named, hinv.ordered, hinv.reflected⟩
      exact hinv'.accept hnamed hadm.newer hadm.mutated
    | applyBatch events =>
      obtain ⟨⟨e, herr⟩, -⟩ | ⟨b, -, hloop, -, hstore⟩ := applyBatch_cases env l.persisted events
      · cases hok.symm.trans herr
      change OrderInv (l.log ++ events) (applyBatch env l.persisted events).1.store.snapshot
        (applyBatch env l.persisted events).1.store.lastSequences
      rw [hstore]
      have hb := batch_inv hinv hloop
      exact ⟨hb.bounded, hb.named, hb.ordered, hb.reflected⟩
    | replace snapshot => exact hnamed.elim
  · have hlog : (record l (env, op)).log = l.log := if_neg hok
    obtain ⟨e, he⟩ := ne_none_iff_exists'.mp hok
    have hsame := call_err he
    unfold Logged.Inv
    rw [hlog]
    change OrderInv l.log (call env l.persisted op).1.store.snapshot
      (call env l.persisted op).1.store.lastSequences
    rw [hsame.snapshot, hsame.lastSequences]
    exact hinv

theorem runLogged_inv (p : PersistedStore) (steps : List (CallEnv × Op))
    (hnamed : ∀ step ∈ steps, step.2.Named) : (runLogged p steps).Inv := by
  unfold runLogged
  have hstart : Logged.Inv ⟨p, []⟩ := OrderInv.nil _ _
  generalize (⟨p, []⟩ : Logged) = l at hstart
  induction steps generalizing l with
  | nil => exact hstart
  | cons step steps ih =>
    exact ih (fun s hs => hnamed s (mem_cons_of_mem step hs)) (record l step)
      (hstart.step (hnamed step mem_cons_self))

/-- **Per-object order.** Along every run of event calls in which the events
handed to `apply` name their objects, the accepted events of each object carry
increasing sequence numbers, and the snapshot reflects the newest of them. -/
theorem runLogged_ordered (p : PersistedStore) (steps : List (CallEnv × Op))
    (hnamed : ∀ step ∈ steps, step.2.Named) :
    Ordered (runLogged p steps).log ∧
      ReflectsNewest (runLogged p steps).log
        (runLogged p steps).persisted.store.snapshot :=
  ⟨(runLogged_inv p steps hnamed).ordered, (runLogged_inv p steps hnamed).reflected⟩

/-- A store with two nodes, the link `ab` between them, and no state file. -/
def twoNodeStore : PersistedStore where
  store :=
    { snapshot := { version := 1, nodes := [{ id := "a" }, { id := "b" }],
                    links := [{ id := "ab", source := "a", target := "b" }] }
      seenEvents := fun _ => none
      lastSequences := fun _ => none
      persistPath := "" }
  file := none

def linkUpEvent (eventID subject : String) (sequence : UInt64) : TopologyEvent where
  eventID := eventID
  subject := subject
  sequence := sequence
  type := .linkUp
  link := some { id := "ab", source := "a", target := "b" }

def linkDownEvent (eventID subject : String) (sequence : UInt64) : TopologyEvent :=
  { linkUpEvent eventID subject sequence with type := .linkDown }

theorem runLogged_ordered_two_events :
    Ordered (runLogged twoNodeStore [(⟨10, none⟩, .apply (linkUpEvent "e1" "ab" 1)),
        (⟨20, none⟩, .applyBatch [linkDownEvent "e2" "ab" 2])]).log ∧
      ReflectsNewest (runLogged twoNodeStore [(⟨10, none⟩, .apply (linkUpEvent "e1" "ab" 1)),
        (⟨20, none⟩, .applyBatch [linkDownEvent "e2" "ab" 2])]).log
        (runLogged twoNodeStore [(⟨10, none⟩, .apply (linkUpEvent "e1" "ab" 1)),
          (⟨20, none⟩, .applyBatch [linkDownEvent "e2" "ab" 2])]).persisted.store.snapshot :=
  runLogged_ordered _ _ (by
    intro step hstep
    rcases mem_pair.mp hstep with rfl | rfl
    · intro x hx
      cases hx
      rfl
    · exact trivial)

/-- `apply` accepts an older event for a link under another subject: sequence `1`
after sequence `5`, and the link is up again although the newest event took it
down. -/
theorem apply_accepts_older_event_of_link :
    let l := runLogged twoNodeStore [(⟨10, none⟩, .apply (linkDownEvent "e1" "ab" 5)),
      (⟨20, none⟩, .apply (linkUpEvent "e2" "other" 1))]
    l.log = [linkDownEvent "e1" "ab" 5, linkUpEvent "e2" "other" 1] ∧
      object (linkDownEvent "e1" "ab" 5) = object (linkUpEvent "e2" "other" 1) ∧
      (linkUpEvent "e2" "other" 1).sequence < (linkDownEvent "e1" "ab" 5).sequence ∧
      l.persisted.store.snapshot.links.map Link.operationalUp = [true] := by
  decide

end StarFabric.Topology

import StarFabric.Topology.Commute

/-!
# A batch does what its events do

`ApplyBatch` works on copies and validates only once, at the end. `Follows` relates the state of its
loop to the store that has taken the same events one at a time, and `Follows.step` is the simulation
step. What `mutate` does does not depend on the header of the snapshot (`mutate_withHeader`), in
which the two differ.
-/

namespace StarFabric.Topology

open Durable ExceptFold Function Go Keyed List Option TopologySnapshot

def acceptAll (env : CallEnv) (p : PersistedStore) (events : List TopologyEvent) :
    Option PersistedStore :=
  events.foldlM (fun q event =>
    if (apply env q event).2.err = none then some (apply env q event).1 else none) p

/-! ### The version and the times play no part in a mutation -/

/-- The nodes and links of `s` under the version and the times of `header`. -/
def withHeader (header s : TopologySnapshot) : TopologySnapshot :=
  { header with nodes := s.nodes, links := s.links }

theorem mutateLink_withHeader (header s : TopologySnapshot) (event : TopologyEvent) :
    mutateLink (withHeader header s) event = (mutateLink s event).map (withHeader header) := by
  unfold mutateLink
  cases event.link with
  | none => rfl
  | some link =>
    dsimp only [withHeader]
    cases s.links.findIdx? fun l => l.id = link.id with
    | none =>
      split_ifs <;> rfl
    | some idx => rfl

theorem mutateNode_withHeader (header s : TopologySnapshot) (event : TopologyEvent) :
    mutateNode (withHeader header s) event = (mutateNode s event).map (withHeader header) := by
  unfold mutateNode
  cases event.node with
  | none => rfl
  | some node =>
    dsimp only [withHeader]
    cases s.nodes.findIdx? fun n => n.id = node.id with
    | none => rfl
    | some idx => rfl

theorem mutate_withHeader (header s : TopologySnapshot) (event : TopologyEvent) :
    mutate (withHeader header s) event = (mutate s event).map (withHeader header) := by
  unfold mutate
  cases event.type with
  | linkUp => exact mutateLink_withHeader header s event
  | linkDown => exact mutateLink_withHeader header s event
  | linkUpdate => exact mutateLink_withHeader header s event
  | nodeUp => exact mutateNode_withHeader header s event
  | nodeDown => exact mutateNode_withHeader header s event
  | other name => rfl

/-! ### The loop follows the store -/

/-- The loop of a batch has the nodes, the links and the sequence numbers of a store, and no event
id that the store has not seen. -/
structure Follows (b : BatchState) (s : Store) : Prop where
  nodes : b.next.nodes = s.snapshot.nodes
  links : b.next.links = s.snapshot.links
  sequences : b.sequences = s.lastSequences
  seen : ∀ id, s.seenEvents id = none → b.seen id = none

theorem follows_start (env : CallEnv) (s : Store) : Follows (batchStart env s) s where
  nodes := rfl
  links := rfl
  sequences := rfl
  seen id hnone := by
    -- the batch forgets old ids, and never adds one
    show recentEvents env.now s.seenEvents id = none
    unfold recentEvents
    rw [hnone]
    rfl

variable {b : BatchState} {event : TopologyEvent}

theorem batchStep_of_admitted {now : Time} {next : TopologySnapshot}
    (h : BatchAdmitted now b event next) :
    batchStep now b event = .ok ⟨next, update b.seen event.eventID (some now),
      update b.sequences event.subject (some event.sequence)⟩ := by
  -- the guards of the loop, in the order of the source
  have htext : ¬ (event.eventID = "" ∨ event.subject = "" ∨ event.sequence = 0) := by
    have := h.text
    tauto
  have hseen : ¬ (b.seen event.eventID).isSome := by
    rw [h.fresh]
    simp
  have hstale : ¬ event.sequence ≤ (b.sequences event.subject).getD 0 := UInt64.not_le.mpr h.newer
  have hsubject : ¬ ((∃ link ∈ event.link, link.id ≠ event.subject) ∨
      ∃ node ∈ event.node, node.id ≠ event.subject) := by
    rintro (⟨link, hlink, hne⟩ | ⟨node, hnode, hne⟩)
    · exact hne (h.link_subject link hlink)
    · exact hne (h.node_subject node hnode)
  unfold batchStep
  rw [if_neg htext, if_neg hseen, if_neg hstale, if_neg (not_lt.mpr h.effective), if_neg hsubject,
    h.mutated]

variable {s : Store} {env : CallEnv} {snapshot : TopologySnapshot}

theorem Follows.mutated (h : Follows b s) (hadm : Admitted env s event snapshot) :
    ∃ next, mutate b.next event = .ok next ∧ next.nodes = snapshot.nodes ∧
      next.links = snapshot.links := by
  have hmutated := hadm.mutated
  -- `Apply` stamps the snapshot before it mutates it, the batch only at the end
  have hheader : ({ s.snapshot with
      version := s.snapshot.version + 1, generatedAt := env.now, validFrom := env.now } :
        TopologySnapshot) = withHeader { s.snapshot with
      version := s.snapshot.version + 1, generatedAt := env.now, validFrom := env.now } b.next := by
    unfold withHeader
    rw [h.nodes, h.links]
  rw [hheader, mutate_withHeader] at hmutated
  cases hnext : mutate b.next event with
  | error e =>
    rw [hnext] at hmutated
    cases hmutated
  | ok next =>
    rw [hnext] at hmutated
    cases Except.ok.inj hmutated
    exact ⟨next, rfl, rfl, rfl⟩

theorem Admitted.effectiveAt_le (hadm : Admitted env s event snapshot) (hnow : 0 ≤ env.now) :
    event.effectiveAt ≤ env.now := by
  rcases hadm.effective with hzero | hle
  · have heq : event.effectiveAt = 0 := of_decide_eq_true hzero
    rw [heq]
    exact hnow
  · exact hle

theorem Follows.step (h : Follows b s) (hnow : 0 ≤ env.now) (hevent : Subjected event)
    (hadm : Admitted env s event snapshot) :
    ∃ b', batchStep env.now b event = .ok b' ∧ Follows b' (s.published env.now event snapshot) := by
  obtain ⟨next, hmutate, hnodes, hlinks⟩ := h.mutated hadm
  have hnewer : (b.sequences event.subject).getD 0 < event.sequence := by
    rw [h.sequences]
    exact hadm.newer
  refine ⟨_, batchStep_of_admitted ⟨hadm.text, h.seen _ hadm.fresh, hnewer,
    hadm.effectiveAt_le hnow, hevent.link, hevent.node, hmutate⟩, hnodes, hlinks, ?_, ?_⟩
  · show update b.sequences _ _ = update s.lastSequences _ _
    rw [h.sequences]
  · intro id hid
    change update s.seenEvents event.eventID (some env.now) id = none at hid
    show update b.seen event.eventID (some env.now) id = none
    -- the same id is added on both sides
    by_cases heq : id = event.eventID
    · rw [heq, update_self] at hid
      cases hid
    · rw [update_of_ne heq] at hid ⊢
      exact h.seen id hid

/-! ### Lists of events -/

/-- What the store and the loop have in common after a list of events, and what is known about the
store from its having taken them. -/
structure Taken (env : CallEnv) (p q : PersistedStore) (events : List TopologyEvent)
    (b : BatchState) : Prop where
  follows : Follows b q.store
  version : q.store.snapshot.version.toNat = p.store.snapshot.version.toNat + events.length
  path : q.store.persistPath = p.store.persistPath
  last : events ≠ [] → q.store.snapshot.Valid ∧ (p.store.persistPath = "" ∨ env.fault = none)

variable {p : PersistedStore} {events : List TopologyEvent}

theorem acceptAll_append {q : PersistedStore} (h : acceptAll env p (events ++ [event]) = some q) :
    ∃ mid, acceptAll env p events = some mid ∧ (apply env mid event).2.err = none ∧
      (apply env mid event).1 = q := by
  unfold acceptAll at h ⊢
  rw [foldlM_append] at h
  obtain ⟨mid, hmid, hlast⟩ := bind_eq_some_iff.mp h
  refine ⟨mid, hmid, ?_⟩
  simp only [foldlM_cons, foldlM_nil] at hlast
  split_ifs at hlast with hok
  · exact ⟨hok, some.inj hlast⟩
  · cases hlast

theorem taken_of_acceptAll (hnow : 0 ≤ env.now) {q : PersistedStore}
    (hevents : ∀ event ∈ events, Subjected event) (h : acceptAll env p events = some q) :
    ∃ b, events.foldlM (batchStep env.now) (batchStart env p.store) = .ok b ∧
      Taken env p q events b := by
  -- from the front to the back of the list, so the last event is split off
  induction events using reverseRecOn generalizing q with
  | nil =>
    cases some.inj h
    exact ⟨_, rfl, follows_start env p.store, rfl, rfl, fun hne => absurd rfl hne⟩
  | append_singleton events event ih =>
    obtain ⟨mid, hmid, hok, rfl⟩ := acceptAll_append h
    obtain ⟨b, hloop, htaken⟩ := ih (fun e he => hevents e (mem_append_left _ he)) hmid
    obtain ⟨snapshot, hadm, hstore⟩ := apply_ok hok
    obtain ⟨b', hstep, hfollows⟩ := htaken.follows.step hnow
      (hevents event (mem_append_right _ mem_cons_self)) hadm
    refine ⟨b', ?_, ?_⟩
    · rw [foldlM_append, hloop]
      show (batchStep env.now b event >>= pure) = .ok b'
      rw [hstep]
      rfl
    · have hpublished := apply_of_admitted hadm
      have hpath := (apply_attempt env mid event).path
      refine ⟨?_, ?_, hpath.trans htaken.path, fun _ => ⟨?_, ?_⟩⟩
      · rw [hstore]
        exact hfollows
      · rw [(apply_grows hok).2, htaken.version, length_append, length_singleton, add_assoc]
      · rw [hstore]
        exact validate_eq_ok_iff.mp hadm.valid
      · -- the event was published, so there was nothing to write or the write stood
        rw [hpublished, publish_ok_iff, htaken.path] at hok
        exact hok

theorem Taken.valid {q : PersistedStore} (h : Taken env p q events b) (hne : events ≠ [])
    (hversion : (b.publishedSnapshot env).version = p.store.snapshot.version + 1) :
    (b.publishedSnapshot env).validate = .ok () := by
  have hvalid := (h.last hne).1
  have hnodes : (b.publishedSnapshot env).nodes = q.store.snapshot.nodes := h.follows.nodes
  have hlinks : (b.publishedSnapshot env).links = q.store.snapshot.links := h.follows.links
  -- the version of the store has gone up at least by one and has not wrapped
  have hnonzero : p.store.snapshot.version + 1 ≠ 0 := by
    intro hzero
    have hwrap := congrArg UInt64.toNat hzero
    have hpos := length_pos_iff.mpr hne
    have hlt := q.store.snapshot.version.toNat_lt
    have hsum := h.version
    rw [UInt64.toNat_add] at hwrap
    have hone : (1 : UInt64).toNat = 1 := rfl
    have hzero' : (0 : UInt64).toNat = 0 := rfl
    omega
  -- all the other checks are about the nodes and the links
  refine validate_eq_ok_iff.mpr ⟨hversion ▸ hnonzero, ?_, ?_, ?_, ?_, ?_, ?_, ?_, ?_⟩
  · rw [hnodes]; exact hvalid.node_id
  · rw [hnodes]; exact hvalid.node_nodup
  · rw [hlinks]; exact hvalid.link_text
  · rw [hlinks]; exact hvalid.link_ends
  · rw [hlinks, hnodes]; exact hvalid.link_source
  · rw [hlinks, hnodes]; exact hvalid.link_target
  · rw [hlinks]; exact hvalid.link_nodup
  · rw [hlinks]; exact hvalid.groups

theorem applyBatch_of_loop (hsize : events ≠ [] ∧ events.length ≤ 10000)
    (hloop : events.foldlM (batchStep env.now) (batchStart env p.store) = .ok b)
    (hvalid : (b.publishedSnapshot env).validate = .ok ())
    (hwrite : p.store.persistPath = "" ∨ env.fault = none) :
    (applyBatch env p events).2.err = none := by
  have hlimit : ¬ (events = [] ∨ 10000 < events.length) := by
    rintro (hempty | hlong)
    · exact hsize.1 hempty
    · exact absurd hsize.2 (not_le.mpr hlong)
  unfold batchStart at hloop
  unfold BatchState.publishedSnapshot at hvalid
  unfold applyBatch
  dsimp only
  rw [if_neg hlimit, hloop]
  dsimp only
  rw [hvalid]
  dsimp only
  split
  · rfl
  · next hpersist =>
    exfalso
    -- the write cannot have failed
    unfold persistLocked writeFile at hpersist
    rcases hwrite with hpath | hfault
    · rw [if_pos hpath] at hpersist
      cases hpersist
    · rw [hfault] at hpersist
      split_ifs at hpersist
      · cases hpersist
      · cases hpersist

/-- **A batch refines its events.** If a store takes a list of events one at a time, it takes them
as a batch, and ends with the same nodes, the same links in the same order, and the same sequence
numbers, one version later instead of one for each event. -/
theorem batch_refines_events (env : CallEnv) (hnow : 0 ≤ env.now) (p q : PersistedStore)
    (events : List TopologyEvent) (hsize : events ≠ [] ∧ events.length ≤ 10000)
    (hevents : ∀ event ∈ events, Subjected event) (h : acceptAll env p events = some q) :
    (applyBatch env p events).2.err = none ∧
      (applyBatch env p events).1.store.snapshot.nodes = q.store.snapshot.nodes ∧
      (applyBatch env p events).1.store.snapshot.links = q.store.snapshot.links ∧
      (applyBatch env p events).1.store.lastSequences = q.store.lastSequences ∧
      (applyBatch env p events).1.store.snapshot.version.toNat =
        p.store.snapshot.version.toNat + 1 ∧
      q.store.snapshot.version.toNat = p.store.snapshot.version.toNat + events.length := by
  obtain ⟨b, hloop, htaken⟩ := taken_of_acceptAll hnow hevents h
  have hvalid := htaken.valid hsize.1 (batch_version hloop)
  have hok := applyBatch_of_loop hsize hloop hvalid (htaken.last hsize.1).2
  -- the store after the batch is made of the state of the loop
  obtain ⟨⟨e, herr⟩, -⟩ | ⟨b', -, hloop', -, hstore⟩ := applyBatch_cases env p events
  · cases hok.symm.trans herr
  cases Except.ok.inj (hloop.symm.trans hloop')
  refine ⟨hok, ?_, ?_, ?_, (applyBatch_grows hok).2, htaken.version⟩
  · rw [hstore]
    exact htaken.follows.nodes
  · rw [hstore]
    exact htaken.follows.links
  · rw [hstore]
    exact htaken.follows.sequences

def linkFlaps : List TopologyEvent :=
  [linkDownEvent "e1" "ab" 1, linkUpEvent "e2" "ab" 2, linkUpEvent "e3" "ab" 7]

theorem subjected_linkFlaps : ∀ event ∈ linkFlaps, Subjected event := by
  intro event hevent
  have hcarried : event.link.map Link.id = some event.subject ∧ event.node = none := by
    revert event
    decide
  refine ⟨fun link hlink => ?_, fun node hnode => ?_⟩
  · rw [hlink] at hcarried
    exact some.inj hcarried.1
  · exact nomatch hcarried.2.symm.trans hnode

theorem batch_refines_linkFlaps : ∃ q, acceptAll ⟨10, none⟩ twoNodeStore linkFlaps = some q ∧
    q.store.snapshot.version = 4 ∧
    (applyBatch ⟨10, none⟩ twoNodeStore linkFlaps).2.err = none ∧
    (applyBatch ⟨10, none⟩ twoNodeStore linkFlaps).1.store.snapshot.links =
      q.store.snapshot.links := by
  have h := batch_refines_events ⟨10, none⟩ (by decide) twoNodeStore _ linkFlaps
    ⟨by decide, by decide⟩ subjected_linkFlaps rfl
  exact ⟨_, rfl, rfl, h.1, h.2.2.1⟩

end StarFabric.Topology

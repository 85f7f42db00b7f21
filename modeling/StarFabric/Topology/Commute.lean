import StarFabric.Topology.Replay
import StarFabric.Lib.Shards

/-!
# Event streams of different subjects commute

An event that names its object changes one link or one node of a valid topology, so the validation
comes down to that (`valid_put_link`), and everything else that is looked at belongs to the subject
as well (`Part`). This makes the store a system in parts in the sense of `Shards` (`apply_takes`).
Event ids are distinct, and the version stays below the largest `uint64` (`Below`).
-/

namespace StarFabric.Topology

open Go Durable Keyed TopologySnapshot Function List

/-! ### What an event writes -/

def nextLink (event : TopologyEvent) (stored : Option Link) : Option Link :=
  match event.link, stored with
  | none, _ => none
  | some link, none =>
    if event.type ≠ .linkUpdate ∧ event.type ≠ .linkUp then none else some (touchLink event link)
  | some link, some old => some (touchLink event (if event.type = .linkUpdate then link else old))

def nextNode (event : TopologyEvent) (stored : Option Node) : Option Node :=
  match event.node with
  | none => none
  | some _ => stored.map fun old => { old with enabled := event.type = .nodeUp }

/-- Both objects that an event can carry have the id of its subject. -/
structure Subjected (event : TopologyEvent) : Prop where
  link : ∀ link, event.link = some link → link.id = event.subject
  node : ∀ node, event.node = some node → node.id = event.subject

section Mutate

variable {s : TopologySnapshot} {event : TopologyEvent}

theorem mutateLink_spec (hevent : Subjected event) (hnodup : (s.links.map Link.id).Nodup)
    {next : Option Link} : nextLink event (lookup Link.id s.links event.subject) = next →
    match next with
    | none => ∃ e, mutateLink s event = .error e
    | some stored => ∃ links, mutateLink s event = .ok { s with links := links } ∧
        Put Link.id event.subject stored s.links links ∧ (links.map Link.id).Nodup := by
  rintro rfl
  unfold mutateLink nextLink
  cases hlink : event.link with
  | none => exact ⟨_, rfl⟩
  | some link =>
    rw [← hevent.link link hlink]
    dsimp only
    cases hidx : s.links.findIdx? fun l => l.id = link.id with
    | none =>
      -- the link is new, and is appended
      have hnew := lookup_eq_none_of_findIdx? hidx
      rw [hnew]
      dsimp only
      split_ifs
      · exact ⟨_, rfl⟩
      · have hid := touchLink_id event link
        rw [← hid] at hnew
        exact ⟨_, rfl, hid ▸ put_append hnew, nodup_append_new hnodup hnew⟩
    | some idx =>
      -- the link is known, and is written in place
      have hkey : ∀ old : Link, old.id = link.id →
          (touchLink event (if event.type = .linkUpdate then link else old)).id = link.id := by
        intro old hold
        rw [touchLink_id]
        split_ifs
        exacts [rfl, hold]
      obtain ⟨old, hfound, -, hput⟩ := put_modify hkey hidx
      rw [hfound]
      exact ⟨_, rfl, hput, (map_key_modify hkey hidx).symm ▸ hnodup⟩

theorem mutateNode_spec (hevent : Subjected event) {next : Option Node} :
    nextNode event (lookup Node.id s.nodes event.subject) = next → match next with
    | none => ∃ e, mutateNode s event = .error e
    | some stored => ∃ nodes, mutateNode s event = .ok { s with nodes := nodes } ∧
        Put Node.id event.subject stored s.nodes nodes ∧
        nodes.map Node.id = s.nodes.map Node.id := by
  rintro rfl
  unfold mutateNode nextNode
  cases hnode : event.node with
  | none => exact ⟨_, rfl⟩
  | some node =>
    rw [← hevent.node node hnode]
    dsimp only
    cases hidx : s.nodes.findIdx? fun n => n.id = node.id with
    | none =>
      rw [lookup_eq_none_of_findIdx? hidx]
      exact ⟨_, rfl⟩
    | some idx =>
      have hkey : ∀ old : Node, Node.id old = node.id →
          Node.id { old with enabled := decide (event.type = .nodeUp) } = node.id :=
        fun _ hold => hold
      obtain ⟨old, hfound, -, hput⟩ := put_modify
        (f := fun old : Node => { old with enabled := decide (event.type = .nodeUp) }) hkey hidx
      rw [hfound]
      exact ⟨_, rfl, hput, map_key_modify hkey hidx⟩

end Mutate

/-! ### Validation comes down to what was written -/

section

variable {s : TopologySnapshot} {version : UInt64} {generatedAt validFrom : Time}

theorem linkValid_of_mem (hvalid : s.Valid) {l : Link} (hl : l ∈ s.links) :
    LinkValid (s.nodes.map Node.id) l :=
  ⟨hvalid.link_text l hl, hvalid.link_ends l hl, hvalid.link_source l hl, hvalid.link_target l hl,
    hvalid.groups l hl⟩

theorem valid_put_link (hvalid : s.Valid) (hversion : version ≠ 0) {subject : String}
    {stored : Link} {links : List Link} (hput : Put Link.id subject stored s.links links)
    (hid : stored.id = subject) (hnodup : (links.map Link.id).Nodup) :
    (TopologySnapshot.Valid ⟨version, generatedAt, validFrom, s.validUntil, s.nodes, links⟩) ↔
      LinkValid (s.nodes.map Node.id) stored := by
  -- a stored link is the one written, or was there before
  have hstored : stored ∈ links := (mem_iff_lookup hnodup).mpr (hid.symm ▸ hput.self)
  have hlinks : ∀ l ∈ links, l = stored ∨ l ∈ s.links := by
    intro l hl
    have hfound := (mem_iff_lookup hnodup).mp hl
    by_cases hsub : l.id = subject
    · rw [hsub, hput.self] at hfound
      exact .inl (Option.some.inj hfound).symm
    · rw [hput.other _ hsub] at hfound
      exact .inr ((mem_iff_lookup hvalid.link_nodup).mpr hfound)
  constructor
  · exact fun h => linkValid_of_mem h hstored
  · intro h
    have hall : ∀ l ∈ links, LinkValid (s.nodes.map Node.id) l := by
      intro l hl
      rcases hlinks l hl with rfl | hold
      · exact h
      · exact linkValid_of_mem hvalid hold
    exact ⟨hversion, hvalid.node_id, hvalid.node_nodup, fun l hl => (hall l hl).text,
      fun l hl => (hall l hl).ends, fun l hl => (hall l hl).source,
      fun l hl => (hall l hl).target, hnodup, fun l hl => (hall l hl).groups⟩

theorem valid_put_node (hvalid : s.Valid) (hversion : version ≠ 0) {nodes : List Node}
    (hids : nodes.map Node.id = s.nodes.map Node.id) :
    TopologySnapshot.Valid ⟨version, generatedAt, validFrom, s.validUntil, nodes, s.links⟩ := by
  refine ⟨hversion, fun n hn => ?_, ?_, hvalid.link_text, hvalid.link_ends, ?_, ?_,
    hvalid.link_nodup, hvalid.groups⟩
  · have hmem : n.id ∈ s.nodes.map Node.id := hids ▸ mem_map_of_mem hn
    obtain ⟨old, hold, hid⟩ := mem_map.mp hmem
    exact hid ▸ hvalid.node_id old hold
  · show (nodes.map Node.id).Nodup
    rw [hids]
    exact hvalid.node_nodup
  · show ∀ l ∈ s.links, l.source ∈ nodes.map Node.id
    rw [hids]
    exact hvalid.link_source
  · show ∀ l ∈ s.links, l.target ∈ nodes.map Node.id
    rw [hids]
    exact hvalid.link_target

end

/-! ### The part of a subject -/

structure Part where
  last : Option UInt64
  link : Option Link
  node : Option Node

def Store.part (s : Store) (subject : String) : Part :=
  ⟨s.lastSequences subject, lookup Link.id s.snapshot.links subject,
    lookup Node.id s.snapshot.nodes subject⟩

open scoped Classical in
/-- How the objects of a part react to an event, in a topology with the given node ids. -/
noncomputable def Part.mutated (ids : List String) (event : TopologyEvent) (v : Part) :
    Option Part :=
  match event.type with
  | .linkUp | .linkDown | .linkUpdate =>
    (nextLink event v.link).bind fun stored =>
      if LinkValid ids stored then some { v with link := some stored } else none
  | .nodeUp | .nodeDown =>
    (nextNode event v.node).map fun stored => { v with node := some stored }
  | .other _ => none

variable {ids : List String} {event : TopologyEvent}

theorem Part.mutated_of_isLink {v w : Part} (htype : event.type.IsLink) :
    v.mutated ids event = some w ↔ ∃ stored, nextLink event v.link = some stored ∧
      LinkValid ids stored ∧ w = { v with link := some stored } := by
  unfold Part.mutated
  cases h : event.type <;> rw [h] at htype <;> first | exact htype.elim | skip
  all_goals
    simp only [Option.bind_eq_some_iff, Option.ite_none_right_eq_some, Option.some.injEq,
      eq_comm (a := w)]

theorem Part.mutated_of_isNode {v w : Part} (htype : event.type.IsNode) :
    v.mutated ids event = some w ↔ ∃ stored, nextNode event v.node = some stored ∧
      w = { v with node := some stored } := by
  unfold Part.mutated
  cases h : event.type <;> rw [h] at htype <;> first | exact htype.elim | skip
  all_goals simp only [Option.map_eq_some_iff, eq_comm (a := w)]

theorem nextLink_id (hevent : Subjected event) {stored : Option Link}
    (hstored : ∀ old, stored = some old → old.id = event.subject) {link : Link}
    (h : nextLink event stored = some link) : link.id = event.subject := by
  unfold nextLink at h
  cases hlink : event.link with
  | none =>
    rw [hlink] at h
    cases h
  | some new =>
    have hnew := hevent.link new hlink
    rw [hlink] at h
    cases stored with
    | none =>
      dsimp only at h
      split_ifs at h
      cases h
      rw [touchLink_id]
      exact hnew
    | some old =>
      cases h
      rw [touchLink_id]
      split_ifs
      exacts [hnew, hstored old rfl]

theorem type_cases (type : EventType) : type.IsLink ∨ type.IsNode ∨ ∃ name, type = .other name := by
  cases type with
  | linkUp | linkDown | linkUpdate => exact .inl trivial
  | nodeUp | nodeDown => exact .inr (.inl trivial)
  | other name => exact .inr (.inr ⟨name, rfl⟩)

variable {s : TopologySnapshot}

theorem mutate_of_isLink (h : event.type.IsLink) : mutate s event = mutateLink s event := by
  unfold mutate
  cases htype : event.type <;> rw [htype] at h <;> first | rfl | exact h.elim

theorem mutate_of_isNode (h : event.type.IsNode) : mutate s event = mutateNode s event := by
  unfold mutate
  cases htype : event.type <;> rw [htype] at h <;> first | rfl | exact h.elim

def candidate (now : Time) (s : TopologySnapshot) : TopologySnapshot :=
  { s with version := s.version + 1, generatedAt := now, validFrom := now }

/-- `t` is `s` with the objects of one subject as in `v`, and `v` is what its part reacts with. -/
structure Written (s t : TopologySnapshot) (subject : String) (v : Part) : Prop where
  ids : t.nodes.map Node.id = s.nodes.map Node.id
  link : lookup Link.id t.links subject = v.link
  node : lookup Node.id t.nodes subject = v.node
  otherLink : ∀ k, k ≠ subject → lookup Link.id t.links k = lookup Link.id s.links k
  otherNode : ∀ k, k ≠ subject → lookup Node.id t.nodes k = lookup Node.id s.nodes k

section Reaction

variable {s : Store} {now : Time} {event : TopologyEvent}

theorem stored_link_id {links : List Link} {subject : String} (old : Link)
    (h : lookup Link.id links subject = some old) : old.id = subject := by
  simpa using find?_some h

theorem mutate_link (now : Time) (hvalid : s.snapshot.Valid) (hevent : Subjected event)
    (htype : event.type.IsLink) {stored : Link}
    (hnext : nextLink event (s.part event.subject).link = some stored) :
    ∃ t, mutate (candidate now s.snapshot) event = .ok t ∧
      Written s.snapshot t event.subject { s.part event.subject with link := some stored } ∧
      (s.snapshot.version + 1 ≠ 0 →
        (t.Valid ↔ LinkValid (s.snapshot.nodes.map Node.id) stored)) := by
  obtain ⟨links, hmutate, hput, hnodup⟩ :=
    mutateLink_spec (s := candidate now s.snapshot) hevent hvalid.link_nodup hnext
  refine ⟨_, (mutate_of_isLink htype).trans hmutate, ⟨rfl, hput.self, rfl, hput.other,
    fun _ _ => rfl⟩, fun hversion => ?_⟩
  have hid : stored.id = event.subject := nextLink_id hevent stored_link_id hnext
  exact valid_put_link hvalid hversion hput hid hnodup

theorem mutate_node (now : Time) (hvalid : s.snapshot.Valid) (hevent : Subjected event)
    (htype : event.type.IsNode) {stored : Node}
    (hnext : nextNode event (s.part event.subject).node = some stored) :
    ∃ t, mutate (candidate now s.snapshot) event = .ok t ∧
      Written s.snapshot t event.subject { s.part event.subject with node := some stored } ∧
      (s.snapshot.version + 1 ≠ 0 → t.Valid) := by
  obtain ⟨nodes, hmutate, hput, hids⟩ :=
    mutateNode_spec (s := candidate now s.snapshot) hevent hnext
  exact ⟨_, (mutate_of_isNode htype).trans hmutate, ⟨hids, rfl, hput.self, fun _ _ => rfl,
    hput.other⟩, fun hversion => valid_put_node hvalid hversion hids⟩

theorem mutate_of_mutated (now : Time) (hvalid : s.snapshot.Valid) (hevent : Subjected event)
    {v : Part}
    (h : (s.part event.subject).mutated (s.snapshot.nodes.map Node.id) event = some v) :
    ∃ t, mutate (candidate now s.snapshot) event = .ok t ∧
      (s.snapshot.version + 1 ≠ 0 → t.Valid) := by
  rcases type_cases event.type with htype | htype | ⟨name, htype⟩
  · obtain ⟨stored, hnext, hlink, -⟩ := (Part.mutated_of_isLink htype).mp h
    obtain ⟨t, hmutate, -, hiff⟩ := mutate_link now hvalid hevent htype hnext
    exact ⟨t, hmutate, fun hversion => (hiff hversion).mpr hlink⟩
  · obtain ⟨stored, hnext, -⟩ := (Part.mutated_of_isNode htype).mp h
    obtain ⟨t, hmutate, -, hok⟩ := mutate_node now hvalid hevent htype hnext
    exact ⟨t, hmutate, hok⟩
  · unfold Part.mutated at h
    rw [htype] at h
    cases h

/-- When `mutate` succeeds with a valid result, the part has reacted, and the result is what it
reacted with. -/
theorem mutated_of_mutate (hvalid : s.snapshot.Valid) (hevent : Subjected event)
    {t : TopologySnapshot} (hmutate : mutate (candidate now s.snapshot) event = .ok t)
    (ht : t.Valid) :
    ∃ v, (s.part event.subject).mutated (s.snapshot.nodes.map Node.id) event = some v ∧
      Written s.snapshot t event.subject v := by
  have hversion : s.snapshot.version + 1 ≠ 0 := by
    have hstep : t.version = s.snapshot.version + 1 := mutate_version hmutate
    rw [← hstep]
    exact ht.version_ne
  rcases type_cases event.type with htype | htype | ⟨name, htype⟩
  · cases hnext : nextLink event (s.part event.subject).link with
    | none =>
      obtain ⟨e, herr⟩ := mutateLink_spec (s := candidate now s.snapshot) hevent hvalid.link_nodup
        hnext
      rw [mutate_of_isLink htype, herr] at hmutate
      cases hmutate
    | some stored =>
      obtain ⟨t', hmutate', hwritten, hiff⟩ := mutate_link now hvalid hevent htype hnext
      cases Except.ok.inj (hmutate.symm.trans hmutate')
      have hlink := (hiff hversion).mp ht
      exact ⟨_, (Part.mutated_of_isLink htype).mpr ⟨stored, hnext, hlink, rfl⟩, hwritten⟩
  · cases hnext : nextNode event (s.part event.subject).node with
    | none =>
      obtain ⟨e, herr⟩ := mutateNode_spec (s := candidate now s.snapshot) hevent hnext
      rw [mutate_of_isNode htype, herr] at hmutate
      cases hmutate
    | some stored =>
      obtain ⟨t', hmutate', hwritten, -⟩ := mutate_node now hvalid hevent htype hnext
      cases Except.ok.inj (hmutate.symm.trans hmutate')
      exact ⟨_, (Part.mutated_of_isNode htype).mpr ⟨stored, hnext, rfl⟩, hwritten⟩
  · unfold mutate at hmutate
    rw [htype] at hmutate
    cases hmutate

end Reaction

/-! ### One event -/

/-- The event is submitted with the largest version, and passes everything that `apply` checks
before it validates the topology with the next version. -/
structure Overflows (env : CallEnv) (s : Store) (event : TopologyEvent) : Prop where
  wraps : s.snapshot.version + 1 = 0
  text : event.eventID ≠ "" ∧ event.subject ≠ "" ∧ event.sequence ≠ 0
  fresh : s.seenEvents event.eventID = none
  newer : s.lastSequence event.subject < event.sequence
  effective : event.effectiveAt.isZero ∨ event.effectiveAt ≤ env.now
  mutated : ∃ t, mutate (candidate env.now s.snapshot) event = .ok t

/-- What the cache, the file and the sequence numbers ask of an event, given the part of its
subject. The cache is the one at the start of a run, and `fault` says which writes fail. -/
structure Passes (p : PersistedStore) (fault : String → Option WriteFault) (event : TopologyEvent)
    (v : Part) : Prop where
  text : event.eventID ≠ "" ∧ event.subject ≠ "" ∧ event.sequence ≠ 0
  fresh : p.store.seenEvents event.eventID = none
  newer : v.last.getD 0 < event.sequence
  writes : p.store.persistPath = "" ∨ fault event.eventID = none

open scoped Classical in
/-- How the part of its subject reacts to an event, in a run that starts from `p`. -/
noncomputable def react (p : PersistedStore) (fault : String → Option WriteFault)
    (event : TopologyEvent) (v : Part) : Option Part :=
  if Passes p fault event v then
    (v.mutated (p.store.snapshot.nodes.map Node.id) event).map fun v =>
      { v with last := some event.sequence }
  else none

/-- The store as a system in parts, with the log of the events it accepted. -/
noncomputable def parts (p : PersistedStore) (fault : String → Option WriteFault) :
    Shards.Parts Logged TopologyEvent String Part where
  key := TopologyEvent.subject
  part l := l.persisted.store.part
  log := Logged.log
  react := react p fault

/-- What is the same after the events `done` of a run from `p`. -/
structure Kept (p : PersistedStore) (done : List TopologyEvent) (q : PersistedStore) : Prop where
  valid : q.store.snapshot.Valid
  ids : q.store.snapshot.nodes.map Node.id = p.store.snapshot.nodes.map Node.id
  path : q.store.persistPath = p.store.persistPath
  seen : ∀ id, id ∉ done.map TopologyEvent.eventID → q.store.seenEvents id = p.store.seenEvents id

theorem publish_ok_iff {env : CallEnv} {p : PersistedStore} {snapshot : TopologySnapshot} :
    (publish env p event snapshot).2.err = none ↔ p.store.persistPath = "" ∨ env.fault = none := by
  have hreported : (publish env p event snapshot).2.err =
      (writeFile p.store.persistPath _ env.fault p.file).1 :=
    congrArg Prod.fst (publish_persisted env p event snapshot)
  rw [hreported]
  unfold writeFile
  split_ifs with hempty
  · exact iff_of_true rfl (.inl hempty)
  · cases env.fault with
    | none => exact iff_of_true rfl (.inr rfl)
    | some f => exact iff_of_false nofun fun h => h.elim hempty nofun

section Step

variable {p q : PersistedStore} {fault : String → Option WriteFault} {env : CallEnv}
  {event : TopologyEvent} {done : List TopologyEvent}

/-- **One call** keeps the topology valid, the ids of the nodes, and what the cache says about
other events. -/
theorem Kept.step (h : Kept p done q) (hevent : Subjected event) :
    Kept p (done ++ [event]) (apply env q event).1 := by
  have hid : ∀ id, id ∉ (done ++ [event]).map TopologyEvent.eventID →
      id ∉ done.map TopologyEvent.eventID ∧ id ≠ event.eventID := by
    intro id hnot
    rw [map_append, mem_append, not_or] at hnot
    exact ⟨hnot.1, fun h => hnot.2 (by rw [h]; exact mem_singleton.mpr rfl)⟩
  cases hresult : (apply env q event).2.err with
  | some e =>
    have hsame := apply_err hresult
    refine ⟨?_, ?_, (apply_attempt env q event).path.trans h.path, fun id hnot => ?_⟩
    · rw [hsame.snapshot]
      exact h.valid
    · rw [hsame.snapshot]
      exact h.ids
    · rw [hsame.seenEvents]
      exact h.seen id (hid id hnot).1
  | none =>
    obtain ⟨snapshot, hadm, hstore⟩ := apply_ok hresult
    have hnext : snapshot.Valid := validate_eq_ok_iff.mp hadm.valid
    obtain ⟨v, -, hwritten⟩ := mutated_of_mutate h.valid hevent hadm.mutated hnext
    refine ⟨?_, ?_, (apply_attempt env q event).path.trans h.path, fun id hnot => ?_⟩
    · rw [hstore]
      exact hnext
    · rw [hstore]
      exact hwritten.ids.trans h.ids
    · rw [hstore]
      show update q.store.seenEvents event.eventID (some env.now) id = _
      rw [update_of_ne (hid id hnot).2]
      exact h.seen id (hid id hnot).1

/-- An accepted event is one to which the part of its subject reacts, and what it reacts with is
its part afterwards. -/
theorem react_of_ok (h : Kept p done q) (hevent : Subjected event)
    (hnew : event.eventID ∉ done.map TopologyEvent.eventID)
    (hfault : env.fault = fault event.eventID) (hok : (apply env q event).2.err = none) :
    react p fault event (q.store.part event.subject) =
        some ((apply env q event).1.store.part event.subject) ∧
      ∀ k, k ≠ event.subject → (apply env q event).1.store.part k = q.store.part k := by
  obtain ⟨snapshot, hadm, hstore⟩ := apply_ok hok
  have hnext : snapshot.Valid := validate_eq_ok_iff.mp hadm.valid
  obtain ⟨v, hv, hwritten⟩ := mutated_of_mutate h.valid hevent hadm.mutated hnext
  have hwrites : q.store.persistPath = "" ∨ env.fault = none := by
    rw [apply_of_admitted hadm] at hok
    exact publish_ok_iff.mp hok
  rw [h.path, hfault] at hwrites
  have hpasses : Passes p fault event (q.store.part event.subject) :=
    ⟨hadm.text, (h.seen _ hnew).symm.trans hadm.fresh, hadm.newer, hwrites⟩
  rw [hstore]
  refine ⟨?_, fun k hk => ?_⟩
  · have hpart : (q.store.published env.now event snapshot).part event.subject =
        { v with last := some event.sequence } := by
      unfold Store.part Store.published
      dsimp only
      rw [update_self, hwritten.link, hwritten.node]
    unfold react
    rw [if_pos hpasses, ← h.ids, hv, Option.map_some, hpart]
  · unfold Store.part Store.published
    dsimp only
    rw [update_of_ne hk, hwritten.otherLink k hk, hwritten.otherNode k hk]

theorem ok_of_react (h : Kept p done q) (hevent : Subjected event)
    (hnew : event.eventID ∉ done.map TopologyEvent.eventID)
    (hfault : env.fault = fault event.eventID)
    (heffective : event.effectiveAt.isZero ∨ event.effectiveAt ≤ env.now)
    (hbelow : ¬ Overflows env q.store event) {v : Part}
    (hreact : react p fault event (q.store.part event.subject) = some v) :
    (apply env q event).2.err = none := by
  unfold react at hreact
  split_ifs at hreact with hpasses
  obtain ⟨w, hw, -⟩ := Option.map_eq_some_iff.mp hreact
  rw [← h.ids] at hw
  obtain ⟨t, hmutate, hvalid⟩ := mutate_of_mutated env.now h.valid hevent hw
  have hfresh : q.store.seenEvents event.eventID = none := (h.seen _ hnew).trans hpasses.fresh
  have hversion : q.store.snapshot.version + 1 ≠ 0 := fun hwraps =>
    hbelow ⟨hwraps, hpasses.text, hfresh, hpasses.newer, heffective, t, hmutate⟩
  have hadm : Admitted env q.store event t := ⟨hpasses.text, hfresh, hpasses.newer, heffective,
    hmutate, validate_eq_ok_iff.mpr (hvalid hversion)⟩
  rw [apply_of_admitted hadm]
  refine publish_ok_iff.mpr ?_
  rw [h.path, hfault]
  exact hpasses.writes

theorem apply_takes {l : Logged} (h : Kept p done l.persisted) (hevent : Subjected event)
    (hnew : event.eventID ∉ done.map TopologyEvent.eventID)
    (hfault : env.fault = fault event.eventID)
    (heffective : event.effectiveAt.isZero ∨ event.effectiveAt ≤ env.now)
    (hbelow : ¬ Overflows env l.persisted.store event) :
    (parts p fault).Takes event l (record l (env, .apply event)) := by
  by_cases hok : (apply env l.persisted event).2.err = none
  · obtain ⟨hreact, hother⟩ := react_of_ok h hevent hnew hfault hok
    exact Shards.Parts.takes_of_accepted hreact rfl hother (if_pos hok)
  · have hreact : react p fault event (l.persisted.store.part event.subject) = none := by
      by_contra hsome
      obtain ⟨v, hv⟩ := Option.ne_none_iff_exists'.mp hsome
      exact hok (ok_of_react h hevent hnew hfault heffective hbelow hv)
    obtain ⟨e, he⟩ := Option.ne_none_iff_exists'.mp hok
    have hsame := apply_err he
    have hpart : (apply env l.persisted event).1.store.part = l.persisted.store.part := by
      funext k
      unfold Store.part
      rw [hsame.snapshot, hsame.lastSequences]
    exact Shards.Parts.takes_of_refused hreact hpart (if_neg hok)

end Step

/-! ### Runs -/

def applyAll (p : PersistedStore) (steps : List (CallEnv × TopologyEvent)) : Logged :=
  steps.foldl (fun l step => record l (step.1, .apply step.2)) ⟨p, []⟩

/-- The version stays below 2^64: no event that passes the other checks is submitted at the
largest version. -/
def Below (p : PersistedStore) (steps : List (CallEnv × TopologyEvent)) : Prop :=
  ∀ done env event rest, steps = done ++ (env, event) :: rest →
    ¬ Overflows env (applyAll p done).persisted.store event

/-- A run of event streams: every event names its object and is effective when it is submitted,
event ids are distinct, the version stays below 2^64, and `fault` says how the file writes fail. -/
structure Streams (p : PersistedStore) (fault : String → Option WriteFault)
    (steps : List (CallEnv × TopologyEvent)) : Prop where
  subjected : ∀ step ∈ steps, Subjected step.2
  distinct : (steps.map fun step => step.2.eventID).Nodup
  effective : ∀ step ∈ steps, step.2.effectiveAt.isZero ∨ step.2.effectiveAt ≤ step.1.now
  faults : ∀ step ∈ steps, step.1.fault = fault step.2.eventID
  below : Below p steps

section Runs

variable {p : PersistedStore} {fault : String → Option WriteFault}
  {steps : List (CallEnv × TopologyEvent)}

theorem applyAll_append (p : PersistedStore) (done : List (CallEnv × TopologyEvent))
    (env : CallEnv) (event : TopologyEvent) :
    applyAll p (done ++ [(env, event)]) = record (applyAll p done) (env, .apply event) := by
  unfold applyAll
  rw [foldl_append, foldl_cons, foldl_nil]

/-- **A run** keeps the topology valid, the ids of the nodes, and what the cache says about the
events that are still to come. -/
theorem kept_applyAll (hvalid : p.store.snapshot.Valid)
    (hevents : ∀ step ∈ steps, Subjected step.2) :
    Kept p (steps.map Prod.snd) (applyAll p steps).persisted := by
  induction steps using reverseRecOn with
  | nil => exact ⟨hvalid, rfl, rfl, fun _ _ => rfl⟩
  | append_singleton done step ih =>
    obtain ⟨env, event⟩ := step
    have hdone := ih fun step hstep => hevents step (mem_append_left _ hstep)
    have hevent := hevents (env, event) (mem_append_right _ (mem_singleton.mpr rfl))
    rw [applyAll_append, map_append]
    exact hdone.step hevent

theorem Streams.takes (hvalid : p.store.snapshot.Valid) (h : Streams p fault steps)
    (done : List (CallEnv × TopologyEvent)) (step : CallEnv × TopologyEvent)
    (rest : List (CallEnv × TopologyEvent)) (hsplit : steps = done ++ step :: rest) :
    (parts p fault).Takes step.2 (applyAll p done)
      (record (applyAll p done) (step.1, .apply step.2)) := by
  have hmem : step ∈ steps := hsplit ▸ mem_append_right done mem_cons_self
  have hdone : ∀ step ∈ done, Subjected step.2 := fun step hstep =>
    h.subjected step (hsplit ▸ mem_append_left _ hstep)
  have hkept := kept_applyAll hvalid hdone
  -- the id of the event is not among those submitted before
  have hnew : step.2.eventID ∉ (done.map Prod.snd).map TopologyEvent.eventID := by
    have hdistinct := h.distinct
    rw [hsplit, map_append, map_cons, nodup_append] at hdistinct
    intro hbefore
    rw [map_map] at hbefore
    exact hdistinct.2.2 _ hbefore _ mem_cons_self rfl
  exact apply_takes hkept (h.subjected step hmem) hnew (h.faults step hmem)
    (h.effective step hmem) (h.below done step.1 step.2 rest hsplit)

theorem version_applyAll (p : PersistedStore) (steps : List (CallEnv × TopologyEvent)) :
    (applyAll p steps).persisted.store.snapshot.version.toNat =
      p.store.snapshot.version.toNat + (applyAll p steps).log.length := by
  induction steps using reverseRecOn with
  | nil => rfl
  | append_singleton done step ih =>
    obtain ⟨env, event⟩ := step
    rw [applyAll_append]
    show (apply env (applyAll p done).persisted event).1.store.snapshot.version.toNat = _ +
      (if (apply env (applyAll p done).persisted event).2.err = none then
        (applyAll p done).log ++ [event] else (applyAll p done).log).length
    split_ifs with hok
    · rw [(apply_grows hok).2, ih, length_append, length_singleton, Nat.add_assoc]
    · obtain ⟨e, he⟩ := Option.ne_none_iff_exists'.mp hok
      rw [(apply_err he).snapshot, ih]

/-- **Streams of different subjects commute.** Two runs that submit the events of each subject in
the same order, however they interleave the subjects and whatever the clock reads, accept the same
events, and end with the same nodes, the same links up to order, the same sequence numbers and the
same version. -/
theorem interleavings_commute {first second : List (CallEnv × TopologyEvent)}
    (hvalid : p.store.snapshot.validate = .ok ()) (hfirst : Streams p fault first)
    (hsecond : Streams p fault second)
    (hsame : ∀ subject, (first.map Prod.snd).filter (fun event => event.subject = subject) =
      (second.map Prod.snd).filter fun event => event.subject = subject) :
    (applyAll p first).log.Perm (applyAll p second).log ∧
      (applyAll p first).persisted.store.snapshot.nodes.Perm
        (applyAll p second).persisted.store.snapshot.nodes ∧
      (applyAll p first).persisted.store.snapshot.links.Perm
        (applyAll p second).persisted.store.snapshot.links ∧
      (applyAll p first).persisted.store.lastSequences =
        (applyAll p second).persisted.store.lastSequences ∧
      (applyAll p first).persisted.store.snapshot.version =
        (applyAll p second).persisted.store.snapshot.version := by
  have hv := validate_eq_ok_iff.mp hvalid
  obtain ⟨hparts, hlog⟩ : (applyAll p first).persisted.store.part =
      (applyAll p second).persisted.store.part ∧ (applyAll p first).log.Perm
        (applyAll p second).log :=
    Shards.Parts.agree (P := parts p fault) Prod.snd hsame (hfirst.takes hv) (hsecond.takes hv)
  have hkept₁ := (kept_applyAll hv hfirst.subjected).valid
  have hkept₂ := (kept_applyAll hv hsecond.subjected).valid
  refine ⟨hlog, ?_, ?_, ?_, ?_⟩
  · refine perm_of_lookup_eq hkept₁.node_nodup hkept₂.node_nodup (funext fun k => ?_)
    exact congrArg Part.node (congrFun hparts k)
  · refine perm_of_lookup_eq hkept₁.link_nodup hkept₂.link_nodup (funext fun k => ?_)
    exact congrArg Part.link (congrFun hparts k)
  · exact funext fun k => congrArg Part.last (congrFun hparts k)
  · apply UInt64.toNat_inj.mp
    rw [version_applyAll, version_applyAll, hlog.length_eq]

theorem length_log_applyAll (p : PersistedStore) (steps : List (CallEnv × TopologyEvent)) :
    (applyAll p steps).log.length ≤ steps.length := by
  induction steps using reverseRecOn with
  | nil => exact Nat.le_refl 0
  | append_singleton done step ih =>
    obtain ⟨env, event⟩ := step
    rw [applyAll_append, length_append, length_singleton]
    show (if (apply env (applyAll p done).persisted event).2.err = none then
      (applyAll p done).log ++ [event] else (applyAll p done).log).length ≤ _
    split_ifs
    · rw [length_append, length_singleton]
      exact Nat.add_le_add_right ih 1
    · exact Nat.le_succ_of_le ih

theorem below_of_length (h : p.store.snapshot.version.toNat + steps.length < 2 ^ 64) :
    Below p steps := by
  intro done env event rest hsplit hover
  have hversion := version_applyAll p done
  have hlog := length_log_applyAll p done
  have hlength : done.length < steps.length := by
    rw [hsplit, length_append, length_cons]
    omega
  have hwraps := congrArg UInt64.toNat hover.wraps
  have hone : (1 : UInt64).toNat = 1 := rfl
  have hzero : (0 : UInt64).toNat = 0 := rfl
  rw [UInt64.toNat_add, hone, hzero] at hwraps
  omega

end Runs

def nodeDownEvent : TopologyEvent where
  eventID := "n1"
  subject := "a"
  sequence := 1
  type := .nodeDown
  node := some { id := "a" }

/-- The streams of the link `ab` and of the node `a`, one after the other. -/
def linkFirst : List (CallEnv × TopologyEvent) :=
  [(⟨10, none⟩, linkUpEvent "e1" "ab" 1), (⟨20, none⟩, linkDownEvent "e2" "ab" 2),
    (⟨30, none⟩, nodeDownEvent)]

def nodeBetween : List (CallEnv × TopologyEvent) :=
  [(⟨15, none⟩, linkUpEvent "e1" "ab" 1), (⟨16, none⟩, nodeDownEvent),
    (⟨17, none⟩, linkDownEvent "e2" "ab" 2)]

theorem streams_of_mem {steps : List (CallEnv × TopologyEvent)}
    (hmem : ∀ step ∈ steps, step.1.fault = none ∧ (step.2 = linkUpEvent "e1" "ab" 1 ∨
      step.2 = linkDownEvent "e2" "ab" 2 ∨ step.2 = nodeDownEvent))
    (hdistinct : (steps.map fun step => step.2.eventID).Nodup) (hlength : steps.length = 3) :
    Streams twoNodeStore (fun _ => none) steps := by
  have hbelow : Below twoNodeStore steps := below_of_length (by rw [hlength]; decide)
  refine ⟨fun step hstep => ?_, hdistinct, fun step hstep => ?_,
    fun step hstep => (hmem step hstep).1, hbelow⟩
  · rcases (hmem step hstep).2 with h | h | h <;> rw [h] <;> constructor <;> rintro _ ⟨⟩ <;> rfl
  · rcases (hmem step hstep).2 with h | h | h <;> rw [h] <;> exact .inl rfl

theorem interleavings_commute_link_node :
    (applyAll twoNodeStore linkFirst).log.length = 3 ∧
      (applyAll twoNodeStore linkFirst).log.Perm (applyAll twoNodeStore nodeBetween).log := by
  have hfirst : Streams twoNodeStore (fun _ => none) linkFirst :=
    streams_of_mem (by decide) (by decide) rfl
  have hsecond : Streams twoNodeStore (fun _ => none) nodeBetween :=
    streams_of_mem (by decide) (by decide) rfl
  refine ⟨by decide, (interleavings_commute (by decide) hfirst hsecond fun subject => ?_).1⟩
  -- the link has two events, in one order; every other subject has at most one
  by_cases hlink : subject = "ab"
  · subst hlink
    decide
  · have hup : decide ((linkUpEvent "e1" "ab" 1).subject = subject) = false :=
      decide_eq_false fun h => hlink h.symm
    have hdown : decide ((linkDownEvent "e2" "ab" 2).subject = subject) = false :=
      decide_eq_false fun h => hlink h.symm
    unfold linkFirst nodeBetween
    simp only [map_cons, map_nil, filter_cons, filter_nil, hup, hdown, Bool.false_eq_true, if_false]

end StarFabric.Topology

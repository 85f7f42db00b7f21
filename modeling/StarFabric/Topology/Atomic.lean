import StarFabric.Topology.Store
import StarFabric.Lib.Fold
import StarFabric.Lib.Keyed

/-!
# Store calls are atomic and monotone

A call that succeeds publishes a valid snapshot, moves the version up and moves the sequence numbers
of exactly the subjects of its events up. A call that fails leaves the snapshot, the event ids and
the sequence numbers as they were: the undo of `apply` is exact (`publish_cases`). The version never
wraps, as validation refuses version `0`.
-/

namespace StarFabric.Topology

open Go Durable ExceptFold Keyed Function List

inductive Op where
  | apply (event : TopologyEvent)
  | applyBatch (events : List TopologyEvent)
  | replace (snapshot : TopologySnapshot)

namespace Op

def subjects : Op → List String
  | apply event => [event.subject]
  | applyBatch events => events.map TopologyEvent.subject
  | replace _ => []

def IsEvents : Op → Prop
  | replace _ => False
  | _ => True

end Op

def call (env : CallEnv) (p : PersistedStore) : Op → PersistedStore × Option String
  | .apply event => ((apply env p event).1, (apply env p event).2.err)
  | .applyBatch events => ((applyBatch env p events).1, (applyBatch env p events).2.err)
  | .replace snapshot => replace env p snapshot

structure SameMemory (s t : Store) : Prop where
  snapshot : t.snapshot = s.snapshot
  seenEvents : t.seenEvents = s.seenEvents
  lastSequences : t.lastSequences = s.lastSequences

theorem SameMemory.refl (s : Store) : SameMemory s s := ⟨rfl, rfl, rfl⟩

/-- What a successful call with the subjects `subjects` does to a store. -/
structure Grows (subjects : List String) (s t : Store) : Prop where
  valid : t.snapshot.validate = .ok ()
  version : s.snapshot.version < t.snapshot.version
  sequence_le : ∀ subject, s.lastSequence subject ≤ t.lastSequence subject
  sequence_lt : ∀ subject ∈ subjects, s.lastSequence subject < t.lastSequence subject

/-! ### The version -/

variable {v : UInt64}

theorem toNat_succ_of_ne_zero (h : v + 1 ≠ 0) : (v + 1).toNat = v.toNat + 1 := by
  have hlt := v.toNat_lt
  have hne : (v + 1).toNat ≠ 0 := fun h0 => h (UInt64.toNat_inj.mp h0)
  have hone : (1 : UInt64).toNat = 1 := rfl
  rw [UInt64.toNat_add, hone] at hne ⊢
  omega

theorem lt_succ_of_ne_zero (h : v + 1 ≠ 0) : v < v + 1 := by
  rw [UInt64.lt_iff_toNat_lt, toNat_succ_of_ne_zero h]
  omega

variable {s : TopologySnapshot}

theorem version_ne_zero (h : s.validate = .ok ()) : s.version ≠ 0 :=
  (TopologySnapshot.validate_eq_ok_iff.mp h).version_ne

/-! ### Mutation -/

theorem touchLink_id (event : TopologyEvent) (link : Link) :
    (touchLink event link).id = link.id := by
  unfold touchLink
  split_ifs <;> rfl

variable {t : TopologySnapshot} {event : TopologyEvent}

/-- A link event writes the record of the link it carries. The record is made
from the link of the event when the event is an update, and when the link is new;
otherwise from the stored link. -/
theorem mutateLink_ok (h : mutateLink s event = .ok t) :
    ∃ link base, event.link = some link ∧ base.id = link.id ∧
      (event.type = .linkUpdate → base = link) ∧ t = { s with links := t.links } ∧
      Put Link.id link.id (touchLink event base) s.links t.links := by
  unfold mutateLink at h
  split at h
  · cases h
  next link hlink =>
  split at h
  · next hidx =>
    split at h
    · cases h
    · cases h
      have hnew : lookup Link.id s.links (touchLink event link).id = none := by
        rw [touchLink_id]; exact lookup_eq_none_of_findIdx? hidx
      exact ⟨link, link, hlink, rfl, fun _ => rfl, rfl, touchLink_id event link ▸ put_append hnew⟩
  · next idx hidx =>
    cases h
    obtain ⟨old, -, hold, hput⟩ := put_modify
      (f := fun old => touchLink event (if event.type = .linkUpdate then link else old))
      (by intro old hold; rw [touchLink_id]; split_ifs; exacts [rfl, hold]) hidx
    refine ⟨link, if event.type = .linkUpdate then link else old, hlink, ?_,
      fun hup => if_pos hup, rfl, hput⟩
    split_ifs
    exacts [rfl, hold]

theorem mutateNode_ok (h : mutateNode s event = .ok t) :
    ∃ node, ∃ old : Node, event.node = some node ∧ t = { s with nodes := t.nodes } ∧
      Put Node.id node.id { old with enabled := decide (event.type = .nodeUp) } s.nodes t.nodes := by
  unfold mutateNode at h
  split at h
  · cases h
  next node hnode =>
  split at h
  · cases h
  · next idx hidx =>
    cases h
    have hkey : ∀ old : Node, Node.id old = node.id →
        Node.id { old with enabled := decide (event.type = .nodeUp) } = node.id :=
      fun _ hold => hold
    obtain ⟨old, -, -, hput⟩ := put_modify
      (f := fun old : Node => { old with enabled := decide (event.type = .nodeUp) }) hkey hidx
    exact ⟨node, old, hnode, rfl, hput⟩

theorem mutate_cases (h : mutate s event = .ok t) :
    (event.type.IsLink ∧ mutateLink s event = .ok t) ∨
      (event.type.IsNode ∧ mutateNode s event = .ok t) := by
  unfold mutate at h
  split at h
  all_goals first
    | cases h
    | (rename_i htype; rw [htype]; exact .inl ⟨trivial, h⟩)
    | (rename_i htype; rw [htype]; exact .inr ⟨trivial, h⟩)

theorem mutate_version (h : mutate s event = .ok t) : t.version = s.version := by
  obtain ⟨-, hlink⟩ | ⟨-, hnode⟩ := mutate_cases h
  · obtain ⟨_, _, _, _, _, heq, _⟩ := mutateLink_ok hlink
    rw [heq]
  · obtain ⟨_, _, _, heq, _⟩ := mutateNode_ok hnode
    rw [heq]

/-! ### One event -/

theorem lastSequence_update (m : String → Option UInt64) (k subject : String) (v : UInt64) :
    (update m k (some v) subject).getD 0 = if subject = k then v else (m subject).getD 0 := by
  by_cases h : subject = k
  · rw [if_pos h, h, update_self]; rfl
  · rw [if_neg h, update_of_ne h]

def Store.published (s : Store) (now : Time) (event : TopologyEvent)
    (snapshot : TopologySnapshot) : Store :=
  { s with
    snapshot := snapshot
    seenEvents := update s.seenEvents event.eventID (some now)
    lastSequences := update s.lastSequences event.subject (some event.sequence) }

variable {p : PersistedStore}

/-- `publish` stands, or its undo is exact. The event id was not seen before, so
removing it restores the set; the two cases of the sequence number each write
back what was read. -/
theorem publish_cases (env : CallEnv) (snapshot : TopologySnapshot)
    (hnew : p.store.seenEvents event.eventID = none) :
    ((publish env p event snapshot).2.err = none ∧
        (publish env p event snapshot).1.store = p.store.published env.now event snapshot) ∨
      ((∃ e, (publish env p event snapshot).2.err = some e) ∧
        SameMemory p.store (publish env p event snapshot).1.store) := by
  unfold publish
  dsimp only
  split
  · exact .inl ⟨rfl, rfl⟩
  · refine .inr ⟨⟨_, rfl⟩, rfl, update_restore hnew, ?_⟩
    cases hprev : p.store.lastSequences event.subject with
    | some sequence => exact update_restore hprev
    | none => exact update_restore hprev

theorem publish_persisted (env : CallEnv) (p : PersistedStore) (event : TopologyEvent)
    (snapshot : TopologySnapshot) :
    ((publish env p event snapshot).2.err, (publish env p event snapshot).1.file) =
      persistLocked env (p.store.published env.now event snapshot) p.file := by
  unfold publish Store.published
  dsimp only
  split
  · next hpersist => rw [hpersist]
  · next hpersist => rw [hpersist]

structure Admitted (env : CallEnv) (s : Store) (event : TopologyEvent)
    (snapshot : TopologySnapshot) : Prop where
  text : event.eventID ≠ "" ∧ event.subject ≠ "" ∧ event.sequence ≠ 0
  fresh : s.seenEvents event.eventID = none
  newer : s.lastSequence event.subject < event.sequence
  effective : event.effectiveAt.isZero ∨ event.effectiveAt ≤ env.now
  mutated : mutate { s.snapshot with
    version := s.snapshot.version + 1, generatedAt := env.now, validFrom := env.now } event =
      .ok snapshot
  valid : snapshot.validate = .ok ()

/-- **What `apply` can do.** Either one of its guards refused the event and
nothing happened, or all of them passed and it published. -/
theorem apply_cases (env : CallEnv) (p : PersistedStore) (event : TopologyEvent) :
    ((apply env p event).1 = p ∧ ∃ e, (apply env p event).2.err = some e) ∨
      ∃ snapshot, Admitted env p.store event snapshot ∧
        apply env p event = publish env p event snapshot := by
  unfold apply
  by_cases htext : event.eventID = "" ∨ event.subject = "" ∨ event.sequence = 0
  · rw [if_pos htext]; exact .inl ⟨rfl, _, rfl⟩
  rw [if_neg htext]
  by_cases hseen : (p.store.seenEvents event.eventID).isSome
  · rw [if_pos hseen]; exact .inl ⟨rfl, _, rfl⟩
  rw [if_neg hseen]
  by_cases hstale : event.sequence ≤ p.store.lastSequence event.subject
  · rw [if_pos hstale]; exact .inl ⟨rfl, _, rfl⟩
  rw [if_neg hstale]
  by_cases hfuture : !event.effectiveAt.isZero ∧ env.now < event.effectiveAt
  · rw [if_pos hfuture]; exact .inl ⟨rfl, _, rfl⟩
  rw [if_neg hfuture]
  split
  · exact .inl ⟨rfl, _, rfl⟩
  · next snapshot hmutate =>
    split
    · exact .inl ⟨rfl, _, rfl⟩
    · next hvalid =>
      refine .inr ⟨snapshot, ⟨by tauto, by simpa using hseen, ?_, ?_, hmutate, hvalid⟩, rfl⟩
      · rw [UInt64.lt_iff_toNat_lt]
        rw [UInt64.le_iff_toNat_le] at hstale
        omega
      · by_contra hnot
        simp only [not_or, not_le] at hnot
        exact hfuture ⟨by simpa using hnot.1, hnot.2⟩

variable {env : CallEnv} {snapshot : TopologySnapshot}

theorem apply_of_admitted (h : Admitted env p.store event snapshot) :
    apply env p event = publish env p event snapshot := by
  have htext : ¬ (event.eventID = "" ∨ event.subject = "" ∨ event.sequence = 0) := by
    have := h.text
    tauto
  have hseen : ¬ (p.store.seenEvents event.eventID).isSome := by
    rw [h.fresh]
    simp
  have hstale : ¬ event.sequence ≤ p.store.lastSequence event.subject := UInt64.not_le.mpr h.newer
  have hfuture : ¬ (!event.effectiveAt.isZero ∧ env.now < event.effectiveAt) := by
    rintro ⟨hzero, hlt⟩
    rcases h.effective with hz | hle
    · rw [hz] at hzero
      exact absurd hzero (by decide)
    · exact absurd hlt (not_lt.mpr hle)
  unfold apply
  rw [if_neg htext, if_neg hseen, if_neg hstale, if_neg hfuture, h.mutated]
  dsimp only
  rw [h.valid]

variable {e : String}

theorem apply_err (h : (apply env p event).2.err = some e) :
    SameMemory p.store (apply env p event).1.store := by
  obtain ⟨hsame, -⟩ | ⟨snapshot, hadm, hpub⟩ := apply_cases env p event
  · rw [hsame]; exact SameMemory.refl p.store
  · rw [hpub] at h ⊢
    obtain ⟨hok, -⟩ | ⟨-, hsame⟩ := publish_cases env snapshot hadm.fresh
    · cases h.symm.trans hok
    · exact hsame

theorem apply_ok (h : (apply env p event).2.err = none) :
    ∃ snapshot, Admitted env p.store event snapshot ∧
      (apply env p event).1.store = p.store.published env.now event snapshot := by
  obtain ⟨-, e, herr⟩ | ⟨snapshot, hadm, hpub⟩ := apply_cases env p event
  · cases h.symm.trans herr
  · rw [hpub] at h ⊢
    obtain ⟨-, hstore⟩ | ⟨⟨e, herr⟩, -⟩ := publish_cases env snapshot hadm.fresh
    · exact ⟨snapshot, hadm, hstore⟩
    · cases h.symm.trans herr

theorem Admitted.version {s : Store} (h : Admitted env s event snapshot) :
    snapshot.version = s.snapshot.version + 1 :=
  mutate_version h.mutated

theorem apply_grows (h : (apply env p event).2.err = none) :
    Grows [event.subject] p.store (apply env p event).1.store ∧
      (apply env p event).1.store.snapshot.version.toNat = p.store.snapshot.version.toNat + 1 := by
  obtain ⟨snapshot, hadm, hstore⟩ := apply_ok h
  have hne : p.store.snapshot.version + 1 ≠ 0 := hadm.version ▸ version_ne_zero hadm.valid
  rw [hstore]
  refine ⟨⟨hadm.valid, ?_, fun subject => ?_, fun subject hs => ?_⟩, ?_⟩
  · change p.store.snapshot.version < snapshot.version
    rw [hadm.version]
    exact lt_succ_of_ne_zero hne
  · change p.store.lastSequence subject ≤
      (update p.store.lastSequences event.subject (some event.sequence) subject).getD 0
    rw [lastSequence_update]
    split_ifs with hsub
    · rw [hsub]; exact UInt64.le_of_lt hadm.newer
    · exact UInt64.le_refl _
  · obtain rfl := mem_singleton.mp hs
    change p.store.lastSequence event.subject < (update p.store.lastSequences
      event.subject (some event.sequence) event.subject).getD 0
    rw [lastSequence_update, if_pos rfl]
    exact hadm.newer
  · change snapshot.version.toNat = _
    rw [hadm.version]
    exact toNat_succ_of_ne_zero hne

/-! ### A batch -/

structure BatchAdmitted (now : Time) (b : BatchState) (event : TopologyEvent)
    (next : TopologySnapshot) : Prop where
  text : event.eventID ≠ "" ∧ event.subject ≠ "" ∧ event.sequence ≠ 0
  fresh : b.seen event.eventID = none
  newer : (b.sequences event.subject).getD 0 < event.sequence
  effective : event.effectiveAt ≤ now
  link_subject : ∀ link, event.link = some link → link.id = event.subject
  node_subject : ∀ node, event.node = some node → node.id = event.subject
  mutated : mutate b.next event = .ok next

variable {now : Time} {b : BatchState}

theorem batchStep_ok {b' : BatchState} (h : batchStep now b event = .ok b') :
    ∃ next, BatchAdmitted now b event next ∧
      b' = ⟨next, update b.seen event.eventID (some now),
        update b.sequences event.subject (some event.sequence)⟩ := by
  unfold batchStep at h
  split_ifs at h with htext hseen hstale hfuture hsubject
  split at h
  · cases h
  · next next hmutate =>
    refine ⟨next, ⟨by tauto, by simpa using hseen, ?_, not_lt.mp hfuture, ?_, ?_, hmutate⟩,
      (Except.ok.inj h).symm⟩
    · rw [UInt64.lt_iff_toNat_lt]
      rw [UInt64.le_iff_toNat_le] at hstale
      omega
    · intro link hlink
      by_contra hne
      exact hsubject (.inl ⟨link, hlink, hne⟩)
    · intro node hnode
      by_contra hne
      exact hsubject (.inr ⟨node, hnode, hne⟩)

/-- The loop invariant of the batch: relative to the store `s`, after the events
`done`. -/
structure BatchGrows (s : Store) (done : List TopologyEvent) (b : BatchState) : Prop where
  version : b.next.version = s.snapshot.version
  sequence_le : ∀ subject, s.lastSequence subject ≤ (b.sequences subject).getD 0
  sequence_lt : ∀ event ∈ done, s.lastSequence event.subject < (b.sequences event.subject).getD 0

theorem BatchGrows.step {s : Store} {done : List TopologyEvent} {b' : BatchState}
    (hb : BatchGrows s done b) (h : batchStep now b event = .ok b') :
    BatchGrows s (done ++ [event]) b' := by
  obtain ⟨next, hadm, rfl⟩ := batchStep_ok h
  -- a round only raises sequence numbers
  have hle : ∀ subject, (b.sequences subject).getD 0 ≤
      (update b.sequences event.subject (some event.sequence) subject).getD 0 := by
    intro subject
    rw [lastSequence_update]
    split_ifs with hsub
    · rw [hsub]; exact UInt64.le_of_lt hadm.newer
    · exact UInt64.le_refl _
  refine ⟨(mutate_version hadm.mutated).trans hb.version,
    fun subject => UInt64.le_trans (hb.sequence_le subject) (hle subject), fun e he => ?_⟩
  rcases mem_append.mp he with hdone | hlast
  · exact UInt64.lt_of_lt_of_le (hb.sequence_lt e hdone) (hle e.subject)
  · obtain rfl := mem_singleton.mp hlast
    refine UInt64.lt_of_le_of_lt (hb.sequence_le e.subject) ?_
    change (b.sequences e.subject).getD 0 <
      (update b.sequences e.subject (some e.sequence) e.subject).getD 0
    rw [lastSequence_update, if_pos rfl]
    exact hadm.newer

def batchStart (env : CallEnv) (s : Store) : BatchState :=
  ⟨s.snapshot, recentEvents env.now s.seenEvents, s.lastSequences⟩

def BatchState.publishedSnapshot (env : CallEnv) (b : BatchState) : TopologySnapshot :=
  { b.next with version := b.next.version + 1, generatedAt := env.now, validFrom := env.now }

/-- **What `applyBatch` can do.** A failed call changes nothing in memory; a
successful one has run the loop to its end and published the result. -/
theorem applyBatch_cases (env : CallEnv) (p : PersistedStore) (events : List TopologyEvent) :
    ((∃ e, (applyBatch env p events).2.err = some e) ∧
        (applyBatch env p events).1.store = p.store) ∨
      ∃ b, (applyBatch env p events).2.err = none ∧
        events.foldlM (batchStep env.now) (batchStart env p.store) = .ok b ∧
        (b.publishedSnapshot env).validate = .ok () ∧
        (applyBatch env p events).1.store = { p.store with
          snapshot := b.publishedSnapshot env
          seenEvents := b.seen
          lastSequences := b.sequences } := by
  unfold applyBatch
  simp only
  by_cases hsize : events = [] ∨ 10000 < events.length
  · rw [if_pos hsize]; exact .inl ⟨⟨_, rfl⟩, rfl⟩
  rw [if_neg hsize]
  split
  · exact .inl ⟨⟨_, rfl⟩, rfl⟩
  · next b hloop =>
    split
    · exact .inl ⟨⟨_, rfl⟩, rfl⟩
    · next hvalid =>
      split
      · exact .inr ⟨b, rfl, hloop, hvalid, rfl⟩
      · exact .inl ⟨⟨_, rfl⟩, rfl⟩

variable {events : List TopologyEvent}

theorem batchGrows_of_loop {s : Store}
    (hloop : events.foldlM (batchStep env.now) (batchStart env s) = .ok b) :
    BatchGrows s events b := by
  have hstart : BatchGrows s [] (batchStart env s) :=
    ⟨rfl, fun subject => UInt64.le_refl _, fun e he => absurd he not_mem_nil⟩
  exact foldlM_history (fun _ _ _ _ hb hs => hb.step hs) [] hstart hloop

theorem batch_version {s : Store}
    (hloop : events.foldlM (batchStep env.now) (batchStart env s) = .ok b) :
    (b.publishedSnapshot env).version = s.snapshot.version + 1 := by
  show b.next.version + 1 = _
  rw [(batchGrows_of_loop hloop).version]

theorem batch_version_lt {s : Store}
    (hloop : events.foldlM (batchStep env.now) (batchStart env s) = .ok b)
    (hvalid : (b.publishedSnapshot env).validate = .ok ()) :
    s.snapshot.version < (b.publishedSnapshot env).version := by
  have hne := version_ne_zero hvalid
  rw [batch_version hloop] at hne ⊢
  exact lt_succ_of_ne_zero hne

theorem applyBatch_grows (h : (applyBatch env p events).2.err = none) :
    Grows (events.map TopologyEvent.subject) p.store (applyBatch env p events).1.store ∧
      (applyBatch env p events).1.store.snapshot.version.toNat =
        p.store.snapshot.version.toNat + 1 := by
  obtain ⟨⟨e, herr⟩, -⟩ | ⟨b, -, hloop, hvalid, hstore⟩ := applyBatch_cases env p events
  · rw [h] at herr; cases herr
  have hend := batchGrows_of_loop hloop
  rw [hstore]
  refine ⟨⟨hvalid, batch_version_lt hloop hvalid, hend.sequence_le, fun subject hs => ?_⟩, ?_⟩
  · obtain ⟨event, hevent, rfl⟩ := mem_map.mp hs
    exact hend.sequence_lt event hevent
  · have hne := version_ne_zero hvalid
    change (b.publishedSnapshot env).version.toNat = _
    rw [batch_version hloop] at hne ⊢
    exact toNat_succ_of_ne_zero hne

/-! ### Replacing the snapshot -/

theorem replace_cases (env : CallEnv) (p : PersistedStore) (snapshot : TopologySnapshot) :
    ((∃ e, (replace env p snapshot).2 = some e) ∧
        SameMemory p.store (replace env p snapshot).1.store) ∨
      ((replace env p snapshot).2 = none ∧ snapshot.validate = .ok () ∧
        p.store.snapshot.version < snapshot.version ∧
        (replace env p snapshot).1.store = { p.store with snapshot := snapshot }) := by
  unfold replace
  split
  · exact .inl ⟨⟨_, rfl⟩, SameMemory.refl _⟩
  · next hvalid =>
    by_cases hversion : snapshot.version ≤ p.store.snapshot.version
    · rw [if_pos hversion]; exact .inl ⟨⟨_, rfl⟩, SameMemory.refl _⟩
    rw [if_neg hversion]
    simp only
    split
    · refine .inr ⟨rfl, hvalid, ?_, rfl⟩
      rw [UInt64.le_iff_toNat_le] at hversion
      rw [UInt64.lt_iff_toNat_lt]
      omega
    · exact .inl ⟨⟨_, rfl⟩, rfl, rfl, rfl⟩

/-! ### The three calls together -/

theorem call_ok {op : Op} (h : (call env p op).2 = none) :
    Grows op.subjects p.store (call env p op).1.store ∧
      (op.IsEvents → (call env p op).1.store.snapshot.version.toNat =
        p.store.snapshot.version.toNat + 1) := by
  cases op with
  | apply event => exact ⟨(apply_grows h).1, fun _ => (apply_grows h).2⟩
  | applyBatch events => exact ⟨(applyBatch_grows h).1, fun _ => (applyBatch_grows h).2⟩
  | replace snapshot =>
    obtain ⟨⟨e, herr⟩, -⟩ | ⟨-, hvalid, hversion, hstore⟩ := replace_cases env p snapshot
    · cases herr.symm.trans h
    change Grows [] p.store (replace env p snapshot).1.store ∧ (False → _)
    rw [hstore]
    exact ⟨⟨hvalid, hversion, fun subject => UInt64.le_refl _, nofun⟩, False.elim⟩

theorem call_err {op : Op} (h : (call env p op).2 = some e) :
    SameMemory p.store (call env p op).1.store := by
  cases op with
  | apply event => exact apply_err h
  | applyBatch events =>
    obtain ⟨-, hsame⟩ | ⟨b, hok, -⟩ := applyBatch_cases env p events
    · change SameMemory p.store (applyBatch env p events).1.store
      rw [hsame]
      exact SameMemory.refl _
    · cases h.symm.trans hok
  | replace snapshot =>
    obtain ⟨-, hsame⟩ | ⟨hok, -⟩ := replace_cases env p snapshot
    · exact hsame
    · cases h.symm.trans hok

/-- **Atomic and monotone.** Whatever the store, the call, the clock and the
outcome of the file write: a call that succeeds grows the store, by exactly one
version if it carries events, and a call that fails keeps it. -/
theorem call_grows_or_keeps (env : CallEnv) (p : PersistedStore) (op : Op) :
    match (call env p op).2 with
    | none => Grows op.subjects p.store (call env p op).1.store ∧
        (op.IsEvents → (call env p op).1.store.snapshot.version.toNat =
          p.store.snapshot.version.toNat + 1)
    | some _ => SameMemory p.store (call env p op).1.store := by
  split
  · next hok => exact call_ok hok
  · next e herr => exact call_err herr

end StarFabric.Topology

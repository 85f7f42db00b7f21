import StarFabric.Topology.Order

/-!
# Accepted events are not accepted again

The ids of recent events are a cache that is pruned, and the last sequence number of each subject is
never dropped. After a failed write the file may be *ahead* of the memory, which is harmless
(`call_file`). Every accepted event stays covered by the sequence numbers of both (`Covered`), and
is refused (`call_covered`).
-/

namespace StarFabric.Topology

open Go Durable ExceptFold Keyed Function List

/-! ### The two calls that carry no event -/

/-- `ExpireSeenEvents`, without the number of ids it removes. -/
def expireSeenEvents (p : PersistedStore) (before : Time) : PersistedStore :=
  { p with store := { p.store with
    seenEvents := fun id => (p.store.seenEvents id).filter fun seen => !(seen < before) } }

/-- `Load`, where `fault` is the error of reading the file, if reading fails. -/
def load (path : String) (fault : Option String) (file : Option PersistentState) :
    Except String Store :=
  match fault, file with
  | some e, _ => .error e
  | none, none => .error ("open " ++ path ++ ": no such file or directory")
  | none, some state =>
    match state.snapshot.validate with
    | .error e => .error ("invalid persisted topology: " ++ e)
    | .ok () => .ok ⟨state.snapshot, state.seenEvents, state.lastSequences, path⟩

def reload (fault : Option String) (p : PersistedStore) : PersistedStore × Option String :=
  if p.store.persistPath = "" then (p, none)
  else
    match load p.store.persistPath fault p.file with
    | .error e => (p, some e)
    | .ok loaded =>
      (⟨{ p.store with
          snapshot := loaded.snapshot
          seenEvents := loaded.seenEvents
          lastSequences := loaded.lastSequences }, p.file⟩, none)

theorem reload_cases (fault : Option String) (p : PersistedStore) :
    (reload fault p).1 = p ∨ p.store.persistPath ≠ "" ∧ ∃ state, p.file = some state ∧
      (reload fault p).1 = ⟨⟨state.snapshot, state.seenEvents, state.lastSequences,
        p.store.persistPath⟩, p.file⟩ := by
  unfold reload
  split_ifs with hpath
  · exact .inl rfl
  · cases fault with
    | some e => exact .inl rfl
    | none =>
      cases hfile : p.file with
      | none => exact .inl rfl
      | some state =>
        unfold load
        dsimp only
        cases state.snapshot.validate with
        | error e => exact .inl rfl
        | ok _ => exact .inr ⟨hpath, state, rfl, rfl⟩

/-! ### What a call writes -/

def PersistentState.lastSequence (state : PersistentState) (subject : String) : UInt64 :=
  (state.lastSequences subject).getD 0

/-- How a call that wants to publish `next` leaves the state file. -/
structure Wrote (p : PersistedStore) (next : Store) (file : Option PersistentState)
    (err : Option String) : Prop where
  either : file = p.file ∨ file = some ⟨next.snapshot, next.seenEvents, next.lastSequences⟩
  ok : err = none → p.store.persistPath ≠ "" →
    file = some ⟨next.snapshot, next.seenEvents, next.lastSequences⟩

theorem persistLocked_wrote (env : CallEnv) (p : PersistedStore) (next : Store)
    (hpath : next.persistPath = p.store.persistPath) :
    Wrote p next (persistLocked env next p.file).2 (persistLocked env next p.file).1 :=
  ⟨writeFile_file _ _ _ _, fun hok hne => writeFile_ok (hpath ▸ hne) hok⟩

theorem publish_wrote (env : CallEnv) (p : PersistedStore) (event : TopologyEvent)
    (snapshot : TopologySnapshot) :
    Wrote p (p.store.published env.now event snapshot) (publish env p event snapshot).1.file
      (publish env p event snapshot).2.err := by
  have hwrote := persistLocked_wrote env p (p.store.published env.now event snapshot) rfl
  rw [← publish_persisted] at hwrote
  exact hwrote

theorem publish_path (env : CallEnv) (p : PersistedStore) (event : TopologyEvent)
    (snapshot : TopologySnapshot) :
    (publish env p event snapshot).1.store.persistPath = p.store.persistPath := by
  unfold publish
  dsimp only
  split
  · rfl
  · rfl

/-- A call refuses without touching the file, or wants to publish `next`, in which no sequence
number is below the one in memory. When it succeeds, `next` is what it leaves in memory. -/
inductive Attempt (p q : PersistedStore) (err : Option String) : Prop where
  | refused (file : q.file = p.file) (err : err ≠ none)
      (path : q.store.persistPath = p.store.persistPath)
  | wrote (next : Store) (wrote : Wrote p next q.file err)
      (sequence_le : ∀ subject, p.store.lastSequence subject ≤ next.lastSequence subject)
      (ok : err = none → q.store = next) (path : q.store.persistPath = p.store.persistPath)

variable {p : PersistedStore}

theorem Attempt.path {q : PersistedStore} {err : Option String} (h : Attempt p q err) :
    q.store.persistPath = p.store.persistPath := by
  cases h with
  | refused _ _ hpath => exact hpath
  | wrote _ _ _ _ hpath => exact hpath

theorem apply_attempt (env : CallEnv) (p : PersistedStore) (event : TopologyEvent) :
    Attempt p (apply env p event).1 (apply env p event).2.err := by
  obtain ⟨hsame, e, herr⟩ | ⟨snapshot, hadm, hpub⟩ := apply_cases env p event
  · rw [hsame, herr]
    exact .refused rfl nofun rfl
  · rw [hpub]
    refine .wrote (p.store.published env.now event snapshot) (publish_wrote env p event snapshot)
      (fun subject => ?_) (fun hok => ?_) (publish_path env p event snapshot)
    · show _ ≤ (update p.store.lastSequences event.subject (some event.sequence) subject).getD 0
      rw [lastSequence_update]
      split_ifs with hsub
      · rw [hsub]
        exact UInt64.le_of_lt hadm.newer
      · exact UInt64.le_refl _
    · obtain ⟨-, hstore⟩ | ⟨⟨e, herr⟩, -⟩ := publish_cases env snapshot hadm.fresh
      · exact hstore
      · cases hok.symm.trans herr

theorem applyBatch_attempt (env : CallEnv) (p : PersistedStore) (events : List TopologyEvent) :
    Attempt p (applyBatch env p events).1 (applyBatch env p events).2.err := by
  unfold applyBatch
  dsimp only
  split_ifs with hsize
  · exact .refused rfl nofun rfl
  cases hloop : events.foldlM (batchStep env.now)
      ⟨p.store.snapshot, recentEvents env.now p.store.seenEvents, p.store.lastSequences⟩ with
  | error e => exact .refused rfl nofun rfl
  | ok b =>
    dsimp only
    split
    · exact .refused rfl nofun rfl
    · have hwrote := persistLocked_wrote env p { p.store with
        snapshot := b.publishedSnapshot env
        seenEvents := b.seen
        lastSequences := b.sequences } rfl
      have hle := (batchGrows_of_loop hloop).sequence_le
      unfold BatchState.publishedSnapshot at hwrote
      split
      · next file hpersist =>
        rw [hpersist] at hwrote
        exact .wrote _ hwrote hle (fun _ => rfl) rfl
      · next e file hpersist =>
        rw [hpersist] at hwrote
        exact .wrote _ hwrote hle nofun rfl

theorem replace_attempt (env : CallEnv) (p : PersistedStore) (snapshot : TopologySnapshot) :
    Attempt p (replace env p snapshot).1 (replace env p snapshot).2 := by
  unfold replace
  cases snapshot.validate with
  | error e => exact .refused rfl nofun rfl
  | ok _ =>
    dsimp only
    split_ifs
    · exact .refused rfl nofun rfl
    · have hwrote := persistLocked_wrote env p { p.store with snapshot := snapshot } rfl
      cases hpersist : persistLocked env { p.store with snapshot := snapshot } p.file with
      | mk err file =>
        rw [hpersist] at hwrote
        cases err with
        | none => exact .wrote _ hwrote (fun _ => UInt64.le_refl _) (fun _ => rfl) rfl
        | some e => exact .wrote _ hwrote (fun _ => UInt64.le_refl _) nofun rfl

theorem call_attempt (env : CallEnv) (p : PersistedStore) (op : Op) :
    Attempt p (call env p op).1 (call env p op).2 := by
  cases op with
  | apply event => exact apply_attempt env p event
  | applyBatch events => exact applyBatch_attempt env p events
  | replace snapshot => exact replace_attempt env p snapshot

/-! ### Which events a call accepts -/

variable {env : CallEnv}

theorem batch_covers {s : Store} {events : List TopologyEvent} {b : BatchState}
    (hloop : events.foldlM (batchStep env.now) (batchStart env s) = .ok b) :
    ∀ e ∈ events, e.sequence ≤ (b.sequences e.subject).getD 0 := by
  have hend := foldlM_history (P := fun done b => ∀ e ∈ done, e.sequence ≤
    (BatchState.sequences b e.subject).getD 0) ?_ [] (fun e he => absurd he not_mem_nil) hloop
  · simpa using hend
  intro done event b b' hb hstep e he
  obtain ⟨next, hadm, rfl⟩ := batchStep_ok hstep
  show _ ≤ (update b.sequences event.subject (some event.sequence) e.subject).getD 0
  rw [lastSequence_update]
  rcases mem_append.mp he with hdone | hlast
  · have hle := hb e hdone
    split_ifs with hsub
    · rw [hsub] at hle
      exact UInt64.le_of_lt (UInt64.lt_of_le_of_lt hle hadm.newer)
    · exact hle
  · obtain rfl := mem_singleton.mp hlast
    rw [if_pos rfl]
    exact UInt64.le_refl _

variable {op : Op}

theorem call_covers (hok : (call env p op).2 = none) :
    ∀ e ∈ op.events, e.sequence ≤ (call env p op).1.store.lastSequence e.subject := by
  intro e he
  cases op with
  | apply event =>
    obtain rfl := mem_singleton.mp he
    obtain ⟨snapshot, hadm, hstore⟩ := apply_ok hok
    show _ ≤ (apply env p e).1.store.lastSequence e.subject
    rw [hstore]
    show _ ≤ (update p.store.lastSequences e.subject (some e.sequence) e.subject).getD 0
    rw [lastSequence_update, if_pos rfl]
    exact UInt64.le_refl _
  | applyBatch events =>
    obtain ⟨⟨err, herr⟩, -⟩ | ⟨b, -, hloop, -, hstore⟩ := applyBatch_cases env p events
    · cases hok.symm.trans herr
    · show _ ≤ (applyBatch env p events).1.store.lastSequence e.subject
      rw [hstore]
      exact batch_covers hloop e he
  | replace snapshot => cases he

variable {e : TopologyEvent}

theorem call_covered (he : e ∈ op.events) (hcovered : e.sequence ≤ p.store.lastSequence e.subject) :
    (call env p op).2 ≠ none := by
  intro hok
  cases op with
  | apply event =>
    obtain rfl := mem_singleton.mp he
    obtain ⟨snapshot, hadm, -⟩ := apply_ok hok
    exact absurd hcovered (UInt64.not_le.mpr hadm.newer)
  | applyBatch events =>
    obtain ⟨⟨err, herr⟩, -⟩ | ⟨b, -, hloop, -, -⟩ := applyBatch_cases env p events
    · cases hok.symm.trans herr
    · -- split the loop at the event: it was covered when its round came
      obtain ⟨before, after, rfl⟩ := append_of_mem he
      obtain ⟨mid, hbefore, hrest⟩ := foldlM_ok_append.mp hloop
      obtain ⟨mid', hround, -⟩ := foldlM_ok_cons.mp hrest
      obtain ⟨next, hadm, -⟩ := batchStep_ok hround
      have hle := UInt64.le_trans hcovered ((batchGrows_of_loop hbefore).sequence_le e.subject)
      exact absurd hle (UInt64.not_le.mpr hadm.newer)
  | replace snapshot => cases he

/-! ### Runs -/

/-- What may happen to a store: a call, the pruning of the cache, a reload of the state file. -/
inductive Act where
  | call (env : CallEnv) (op : Op)
  | expireSeenEvents (before : Time)
  | reload (fault : Option String)

def act (l : Logged) : Act → Logged
  | .call env op => record l (env, op)
  | .expireSeenEvents before => { l with persisted := expireSeenEvents l.persisted before }
  | .reload fault => { l with persisted := (reload fault l.persisted).1 }

def runActs (p : PersistedStore) (acts : List Act) : Logged := acts.foldl act ⟨p, []⟩

/-- The event is covered in memory, and in the state file if there is one to reload. -/
structure Covered (p : PersistedStore) (e : TopologyEvent) : Prop where
  memory : e.sequence ≤ p.store.lastSequence e.subject
  file : p.store.persistPath ≠ "" →
    ∃ state, p.file = some state ∧ e.sequence ≤ state.lastSequence e.subject

theorem call_sequence_le (env : CallEnv) (p : PersistedStore) (op : Op) (subject : String) :
    p.store.lastSequence subject ≤ (call env p op).1.store.lastSequence subject := by
  cases hresult : (call env p op).2 with
  | none => exact (call_ok hresult).1.sequence_le subject
  | some e =>
    have hsame := (call_err hresult).lastSequences
    unfold Store.lastSequence
    rw [hsame]
    exact UInt64.le_refl _

theorem Covered.call (h : Covered p e) (env : CallEnv) (op : Op) : Covered (call env p op).1 e := by
  have hattempt := call_attempt env p op
  refine ⟨UInt64.le_trans h.memory (call_sequence_le env p op e.subject), fun hpath => ?_⟩
  rw [hattempt.path] at hpath
  have hold := h.file hpath
  cases hattempt with
  | refused hfile _ _ =>
    rw [hfile]
    exact hold
  | wrote next hwrote hle _ _ =>
    rcases hwrote.either with hfile | hfile
    · rw [hfile]
      exact hold
    · exact ⟨_, hfile, UInt64.le_trans h.memory (hle e.subject)⟩

theorem covered_of_accepted (he : e ∈ op.events) (hok : (call env p op).2 = none) :
    Covered (call env p op).1 e := by
  have hattempt := call_attempt env p op
  have hmemory := call_covers hok e he
  refine ⟨hmemory, fun hpath => ?_⟩
  rw [hattempt.path] at hpath
  cases hattempt with
  | refused _ herr _ => exact absurd hok herr
  | wrote next hwrote _ hstore _ =>
    rw [hstore hok] at hmemory
    exact ⟨_, hwrote.ok hok hpath, hmemory⟩

theorem act_covered {l : Logged} (a : Act) (h : ∀ e ∈ l.log, Covered l.persisted e) :
    ∀ e ∈ (act l a).log, Covered (act l a).persisted e := by
  cases a with
  | call env op =>
    intro e he
    show Covered (call env l.persisted op).1 e
    replace he : e ∈ if (call env l.persisted op).2 = none then l.log ++ op.events else l.log := he
    split_ifs at he with hok
    · rcases mem_append.mp he with hold | hnew
      · exact (h e hold).call env op
      · exact covered_of_accepted hnew hok
    · exact (h e he).call env op
  | expireSeenEvents before => exact fun e he => ⟨(h e he).memory, (h e he).file⟩
  | reload fault =>
    intro e he
    have hcovered := h e he
    show Covered (reload fault l.persisted).1 e
    rcases reload_cases fault l.persisted with hsame | ⟨hpath, state, hfile, hloaded⟩
    · rw [hsame]
      exact hcovered
    · -- the memory is now what the file holds
      obtain ⟨state', hfile', hle⟩ := hcovered.file hpath
      cases Option.some.inj (hfile.symm.trans hfile')
      rw [hloaded]
      exact ⟨hle, fun _ => ⟨state, hfile, hle⟩⟩

theorem runActs_covered (p : PersistedStore) (acts : List Act) :
    ∀ e ∈ (runActs p acts).log, Covered (runActs p acts).persisted e := by
  unfold runActs
  have hstart : ∀ e ∈ (⟨p, []⟩ : Logged).log, Covered (⟨p, []⟩ : Logged).persisted e :=
    fun e he => absurd he not_mem_nil
  generalize (⟨p, []⟩ : Logged) = l at hstart ⊢
  induction acts generalizing l with
  | nil => exact hstart
  | cons a acts ih => exact ih (act l a) (act_covered a hstart)

/-- **Exactly once.** After any run of calls, cache prunings and reloads of the state file, at any
clock readings and with any failing file writes, an event that was accepted is refused when it is
handed in again, alone or in a batch, and the topology stays as it is. -/
theorem accepted_event_refused (p : PersistedStore) (acts : List Act) {e again : TopologyEvent}
    (haccepted : e ∈ (runActs p acts).log) (env : CallEnv) {op : Op} (hagain : again ∈ op.events)
    (hid : again.eventID = e.eventID ∧ again.subject = e.subject ∧ again.sequence = e.sequence) :
    (call env (runActs p acts).persisted op).2 ≠ none ∧
      (call env (runActs p acts).persisted op).1.store.snapshot =
        (runActs p acts).persisted.store.snapshot := by
  have hcovered := (runActs_covered p acts e haccepted).memory
  rw [← hid.2.1, ← hid.2.2] at hcovered
  have hrefused : (call env (runActs p acts).persisted op).2 ≠ none := call_covered hagain hcovered
  obtain ⟨err, herr⟩ := Option.ne_none_iff_exists'.mp hrefused
  exact ⟨hrefused, (call_err herr).snapshot⟩

def filedStore : PersistedStore :=
  { twoNodeStore with store := { twoNodeStore.store with persistPath := "topology.json" } }

/-- One event is accepted, its id is pruned from the cache, and another call fails to write. -/
def prunedActs : List Act :=
  [.call ⟨10, none⟩ (.apply (linkUpEvent "e1" "ab" 1)), .expireSeenEvents 20,
    .call ⟨30, some ⟨.syncDir, "input/output error"⟩⟩ (.apply (linkDownEvent "e2" "ab" 2))]

/-- The id of the accepted event is gone from the cache, and the event is still refused. -/
theorem accepted_event_refused_pruned :
    (runActs filedStore prunedActs).persisted.store.seenEvents "e1" = none ∧
      (call ⟨40, none⟩ (runActs filedStore prunedActs).persisted
        (.applyBatch [linkUpEvent "e1" "ab" 1])).2 ≠ none := by
  have hlog : linkUpEvent "e1" "ab" 1 ∈ (runActs filedStore prunedActs).log := by decide
  refine ⟨by decide, ?_⟩
  exact (accepted_event_refused filedStore prunedActs hlog ⟨40, none⟩ (mem_singleton.mpr rfl)
    ⟨rfl, rfl, rfl⟩).1

end StarFabric.Topology

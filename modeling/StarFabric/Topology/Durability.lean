import StarFabric.Topology.Replay

/-!
# The store and its state file

A call that cannot write the state file takes its changes back in memory. The write has two steps
after the rename, and if one of these fails the file has the changes all the same. A store that
agrees with its file still does after a call, unless the call would have succeeded and failed in one
of these two steps (`Torn`, `call_agrees_iff`).
-/

namespace StarFabric.Topology

open Go Durable ExceptFold Keyed List

def Store.persistent (s : Store) : PersistentState := ⟨s.snapshot, s.seenEvents, s.lastSequences⟩

/-- A store loaded from the file has the snapshot and the sequence numbers of the one in memory. -/
def PersistedStore.AgreesWithFile (p : PersistedStore) : Prop :=
  ∃ s, load p.store.persistPath none p.file = .ok s ∧ s.snapshot = p.store.snapshot ∧
    s.lastSequences = p.store.lastSequences

def Torn (env : CallEnv) (p : PersistedStore) (op : Op) : Prop :=
  (∃ fault, env.fault = some fault ∧ fault.step.afterRename = true) ∧
    (call { env with fault := none } p op).2 = none

def runCalls (p : PersistedStore) (steps : List (CallEnv × Op)) : PersistedStore :=
  steps.foldl (fun q step => (call step.1 q step.2).1) p

/-! ### What a call writes -/

/-- The call goes as far as the write: it wants to publish `next`, and keeps it exactly when the
write reports no error. -/
structure Writes (env : CallEnv) (p q : PersistedStore) (err : Option String) (next : Store) :
    Prop where
  path : next.persistPath = p.store.persistPath
  newer : p.store.snapshot.version < next.snapshot.version
  valid : next.snapshot.validate = .ok ()
  file : q.file = (persistLocked env next p.file).2
  reported : err = (persistLocked env next p.file).1
  stands : err = none → q.store = next
  undone : err ≠ none → SameMemory p.store q.store
  kept : q.store.persistPath = p.store.persistPath

theorem persistLocked_fault_none (env : CallEnv) (s : Store) (file : Option PersistentState) :
    (persistLocked { env with fault := none } s file).1 = none := by
  unfold persistLocked writeFile
  split_ifs <;> rfl

variable {env : CallEnv} {p : PersistedStore} {next : Store}

theorem Writes.ok {q : PersistedStore} {err : Option String}
    (h : Writes { env with fault := none } p q err next) : err = none := by
  rw [h.reported]
  exact persistLocked_fault_none env next p.file

variable {snapshot : TopologySnapshot}

theorem publish_writes (env : CallEnv) (p : PersistedStore) (event : TopologyEvent)
    (hadm : Admitted env p.store event snapshot) :
    Writes env p (publish env p event snapshot).1 (publish env p event snapshot).2.err
      (p.store.published env.now event snapshot) where
  path := rfl
  newer := by
    have hne : p.store.snapshot.version + 1 ≠ 0 := hadm.version ▸ version_ne_zero hadm.valid
    show p.store.snapshot.version < snapshot.version
    rw [hadm.version]
    exact lt_succ_of_ne_zero hne
  valid := hadm.valid
  file := congrArg Prod.snd (publish_persisted env p event snapshot)
  reported := congrArg Prod.fst (publish_persisted env p event snapshot)
  stands hok := by
    obtain ⟨-, hstore⟩ | ⟨⟨e, herr⟩, -⟩ := publish_cases env snapshot hadm.fresh
    · exact hstore
    · cases hok.symm.trans herr
  undone herr := by
    obtain ⟨hok, -⟩ | ⟨-, hsame⟩ := publish_cases env snapshot hadm.fresh
    · exact absurd hok herr
    · exact hsame
  kept := publish_path env p event snapshot

/-- A call refuses, whatever would become of the write, or goes as far as the write. -/
def RefusesOrWrites (env : CallEnv) (p : PersistedStore) (op : Op) : Prop :=
  ((call env p op).1 = p ∧ (call env p op).2 ≠ none ∧
      (call { env with fault := none } p op).2 ≠ none) ∨
    ∃ next, Writes env p (call env p op).1 (call env p op).2 next ∧
      (call { env with fault := none } p op).2 = none

variable {s : Store}

theorem Admitted.without_fault {event : TopologyEvent} (h : Admitted env s event snapshot)
    (fault : Option WriteFault) : Admitted { env with fault := fault } s event snapshot :=
  ⟨h.text, h.fresh, h.newer, h.effective, h.mutated, h.valid⟩

theorem apply_writes (env : CallEnv) (p : PersistedStore) (event : TopologyEvent) :
    RefusesOrWrites env p (.apply event) := by
  -- `Admitted` does not mention the write, so it can be asked before it
  by_cases hadmitted : ∃ snapshot, Admitted env p.store event snapshot
  · obtain ⟨snapshot, hadm⟩ := hadmitted
    have hquiet : Admitted { env with fault := none } p.store event snapshot :=
      hadm.without_fault none
    have hwrites := publish_writes env p event hadm
    have hwrites' := publish_writes { env with fault := none } p event hquiet
    rw [← apply_of_admitted hadm] at hwrites
    rw [← apply_of_admitted hquiet] at hwrites'
    exact .inr ⟨_, hwrites, hwrites'.ok⟩
  · -- the guards do not depend on what becomes of the write
    have hrefused : ∀ fault, (apply { env with fault := fault } p event).2.err ≠ none := by
      intro fault hok
      obtain ⟨snapshot, hadm, -⟩ := apply_ok hok
      exact hadmitted ⟨snapshot, hadm.without_fault env.fault⟩
    obtain ⟨hsame, -⟩ | ⟨snapshot, hadm, -⟩ := apply_cases env p event
    · exact .inl ⟨hsame, hrefused env.fault, hrefused none⟩
    · exact absurd ⟨snapshot, hadm⟩ hadmitted

/-- A store with other contents is put in place, and taken back if it cannot be written. -/
def publishStore (env : CallEnv) (p : PersistedStore) (next : Store) :
    PersistedStore × Option String :=
  match persistLocked env next p.file with
  | (none, file) => (⟨next, file⟩, none)
  | (some e, file) => (⟨p.store, file⟩, some e)

theorem publishStore_writes (env : CallEnv) (hpath : next.persistPath = p.store.persistPath)
    (hnewer : p.store.snapshot.version < next.snapshot.version)
    (hvalid : next.snapshot.validate = .ok ()) :
    Writes env p (publishStore env p next).1 (publishStore env p next).2 next := by
  unfold publishStore
  cases hpersist : persistLocked env next p.file with
  | mk err file =>
    cases err with
    | none =>
      refine ⟨hpath, hnewer, hvalid, ?_, ?_, fun _ => rfl, fun hne => absurd rfl hne, hpath⟩
      · rw [hpersist]
      · rw [hpersist]
    | some e =>
      refine ⟨hpath, hnewer, hvalid, ?_, ?_, nofun, fun _ => SameMemory.refl _, rfl⟩
      · rw [hpersist]
      · rw [hpersist]

theorem writes_of_publishStore {op : Op}
    (h : (∀ fault, (call { env with fault := fault } p op).1 = p ∧
      (call { env with fault := fault } p op).2 ≠ none) ∨
      ∃ next : Store, next.persistPath = p.store.persistPath ∧
      p.store.snapshot.version < next.snapshot.version ∧ next.snapshot.validate = .ok () ∧
      ∀ fault, call { env with fault := fault } p op =
      publishStore { env with fault := fault } p next) :
    RefusesOrWrites env p op := by
  -- both the call as it is and the call without a failing step are needed
  rcases h with hrefused | ⟨next, hpath, hnewer, hvalid, hcall⟩
  · exact .inl ⟨(hrefused env.fault).1, (hrefused env.fault).2, (hrefused none).2⟩
  · have hwrites := publishStore_writes env hpath hnewer hvalid
    have hquiet := publishStore_writes { env with fault := none } hpath hnewer hvalid
    rw [← hcall] at hquiet
    refine .inr ⟨next, ?_, hquiet.ok⟩
    have henv : call env p op = publishStore env p next := hcall env.fault
    rw [henv]
    exact hwrites

theorem applyBatch_writes (env : CallEnv) (p : PersistedStore) (events : List TopologyEvent) :
    RefusesOrWrites env p (.applyBatch events) := by
  apply writes_of_publishStore
  unfold call applyBatch
  dsimp only
  split_ifs with hsize
  · exact .inl fun _ => ⟨rfl, nofun⟩
  -- the events, then the whole topology, and only then the write
  cases hloop : events.foldlM (batchStep env.now)
      ⟨p.store.snapshot, recentEvents env.now p.store.seenEvents, p.store.lastSequences⟩ with
  | error e => exact .inl fun _ => ⟨rfl, nofun⟩
  | ok b =>
    dsimp only
    cases hvalid : TopologySnapshot.validate { b.next with
        version := b.next.version + 1, generatedAt := env.now, validFrom := env.now } with
    | error e => exact .inl fun _ => ⟨rfl, nofun⟩
    | ok _ =>
      refine .inr ⟨{ p.store with
        snapshot := b.publishedSnapshot env
        seenEvents := b.seen
        lastSequences := b.sequences }, rfl, ?_, hvalid, fun fault => ?_⟩
      · exact batch_version_lt hloop hvalid
      · -- the call matches on the write of this very store
        unfold publishStore BatchState.publishedSnapshot
        generalize persistLocked _ _ p.file = outcome
        obtain ⟨err, file⟩ := outcome
        cases err with
        | none => rfl
        | some e => rfl

theorem replace_writes (env : CallEnv) (p : PersistedStore) (snapshot : TopologySnapshot) :
    RefusesOrWrites env p (.replace snapshot) := by
  apply writes_of_publishStore
  show (∀ fault, (replace { env with fault := fault } p snapshot).1 = p ∧
      (replace { env with fault := fault } p snapshot).2 ≠ none) ∨
    ∃ next : Store, _ ∧ _ ∧ _ ∧ ∀ fault, replace { env with fault := fault } p snapshot = _
  unfold replace
  cases hvalid : snapshot.validate with
  | error e => exact .inl fun _ => ⟨rfl, nofun⟩
  | ok _ =>
    dsimp only
    split_ifs with hversion
    · exact .inl fun _ => ⟨rfl, nofun⟩
    · -- the version is greater, which is the last check
      refine .inr ⟨{ p.store with snapshot := snapshot }, rfl, UInt64.not_le.mp hversion, hvalid,
        fun fault => ?_⟩
      unfold publishStore
      split
      · next hpersist => rw [hpersist]
      · next hpersist => rw [hpersist]

theorem call_writes (env : CallEnv) (p : PersistedStore) (op : Op) : RefusesOrWrites env p op := by
  cases op with
  | apply event => exact apply_writes env p event
  | applyBatch events => exact applyBatch_writes env p events
  | replace snapshot => exact replace_writes env p snapshot

/-! ### Agreement -/

variable {state : PersistentState}

theorem load_ok {path : String} (hvalid : state.snapshot.validate = .ok ()) :
    load path none (some state) =
      .ok ⟨state.snapshot, state.seenEvents, state.lastSequences, path⟩ := by
  unfold load
  dsimp only
  rw [hvalid]

theorem PersistedStore.AgreesWithFile.of_same {q : PersistedStore} (h : p.AgreesWithFile)
    (hsame : SameMemory p.store q.store) (hpath : q.store.persistPath = p.store.persistPath)
    (hfile : q.file = p.file) : q.AgreesWithFile := by
  obtain ⟨s, hload, hsnapshot, hsequences⟩ := h
  refine ⟨s, ?_, ?_, ?_⟩
  · rw [hpath, hfile]
    exact hload
  · rw [hsnapshot, hsame.snapshot]
  · rw [hsequences, hsame.lastSequences]

theorem PersistedStore.AgreesWithFile.version (h : p.AgreesWithFile) (hfile : p.file = some state) :
    state.snapshot.version = p.store.snapshot.version := by
  obtain ⟨s, hload, hsnapshot, -⟩ := h
  rw [hfile] at hload
  unfold load at hload
  dsimp only at hload
  split at hload
  · cases hload
  · cases Except.ok.inj hload
    exact congrArg TopologySnapshot.version hsnapshot

theorem persistLocked_of_fault (hpath : s.persistPath ≠ "") {fault : WriteFault}
    (hfault : env.fault = some fault) (file : Option PersistentState) :
    persistLocked env s file = (some fault.error,
      if fault.step.afterRename then some s.persistent else file) := by
  unfold persistLocked writeFile
  rw [if_neg hpath, hfault]
  rfl

theorem persistLocked_of_none (hpath : s.persistPath ≠ "") (hfault : env.fault = none)
    (file : Option PersistentState) :
    persistLocked env s file = (none, some s.persistent) := by
  unfold persistLocked writeFile
  rw [if_neg hpath, hfault]
  rfl

/-- **One call.** A store that agrees with its file still does after a call, unless the call would
have succeeded and failed after the rename. -/
theorem call_agrees_iff {op : Op} (hpath : p.store.persistPath ≠ "") (hagrees : p.AgreesWithFile) :
    (call env p op).1.AgreesWithFile ↔ ¬ Torn env p op := by
  obtain ⟨hsame, -, hrefused⟩ | ⟨next, hwrites, hquiet⟩ := call_writes env p op
  · rw [hsame]
    exact iff_of_true hagrees fun htorn => hrefused htorn.2
  have hnext : next.persistPath ≠ "" := hwrites.path ▸ hpath
  cases hfault : env.fault with
  | none =>
    have hpersist := persistLocked_of_none hnext hfault p.file
    have hok : (call env p op).2 = none := by rw [hwrites.reported, hpersist]
    have hfile : (call env p op).1.file = some next.persistent := by rw [hwrites.file, hpersist]
    refine iff_of_true ?_ fun htorn => ?_
    · have hload : load (call env p op).1.store.persistPath none (call env p op).1.file =
          .ok { next with persistPath := (call env p op).1.store.persistPath } := by
        rw [hfile]
        exact load_ok hwrites.valid
      refine ⟨_, hload, ?_, ?_⟩
      · rw [hwrites.stands hok]
      · rw [hwrites.stands hok]
    · obtain ⟨⟨fault, hsome, -⟩, -⟩ := htorn
      cases hfault.symm.trans hsome
  | some fault =>
    have hpersist := persistLocked_of_fault hnext hfault p.file
    have herr : (call env p op).2 ≠ none := by
      rw [hwrites.reported, hpersist]
      exact nofun
    -- the call has taken its changes back, whichever step it was that failed
    have hmemory := hwrites.undone herr
    cases hstep : fault.step.afterRename with
    | false =>
      -- the old file is still there
      have hfile : (call env p op).1.file = p.file := by
        rw [hwrites.file, hpersist, hstep]
        rfl
      refine iff_of_true (hagrees.of_same hmemory hwrites.kept hfile) fun htorn => ?_
      obtain ⟨⟨fault', hsome, hafter⟩, -⟩ := htorn
      cases Option.some.inj (hfault.symm.trans hsome)
      exact absurd (hstep.symm.trans hafter) (by decide)
    | true =>
      -- the file is already the new one, and its version is newer than the one in memory
      have hfile : (call env p op).1.file = some next.persistent := by
        rw [hwrites.file, hpersist, hstep]
        rfl
      refine iff_of_false (fun hstill => ?_) (not_not.mpr ⟨⟨fault, hfault, hstep⟩, hquiet⟩)
      have hversion : next.snapshot.version = p.store.snapshot.version := by
        rw [← hmemory.snapshot]
        exact hstill.version hfile
      exact absurd hversion.symm (UInt64.ne_of_lt hwrites.newer)

/-! ### Runs -/

theorem runCalls_append (p : PersistedStore) (done : List (CallEnv × Op)) (step : CallEnv × Op) :
    runCalls p (done ++ [step]) = (call step.1 (runCalls p done) step.2).1 := by
  unfold runCalls
  rw [foldl_append]
  rfl

theorem runCalls_path (p : PersistedStore) (steps : List (CallEnv × Op)) :
    (runCalls p steps).store.persistPath = p.store.persistPath := by
  induction steps using reverseRecOn with
  | nil => rfl
  | append_singleton done step ih =>
    rw [runCalls_append]
    exact (call_attempt step.1 _ step.2).path.trans ih

/-- **The file agrees with the memory** after every call of a run, from a store that agrees with
its file, exactly when no call of the run that would have succeeded fails after the rename. -/
theorem agrees_with_file_iff (p : PersistedStore) (hpath : p.store.persistPath ≠ "")
    (hagrees : p.AgreesWithFile) (steps : List (CallEnv × Op)) :
    (∀ done rest, steps = done ++ rest → (runCalls p done).AgreesWithFile) ↔
      ∀ done step rest, steps = done ++ step :: rest → ¬ Torn step.1 (runCalls p done) step.2 := by
  have hpaths : ∀ done, (runCalls p done).store.persistPath ≠ "" := fun done => by
    rw [runCalls_path]
    exact hpath
  exact ExceptFold.foldl_always_iff (I := fun q : PersistedStore => q.store.persistPath ≠ "")
    (T := fun q step => Torn step.1 q step.2) hpaths hagrees
    (fun _ _ hq hbefore => call_agrees_iff hq hbefore) steps

def savedStore : PersistedStore :=
  { filedStore with file := some filedStore.store.persistent }

theorem savedStore_agrees : savedStore.AgreesWithFile :=
  ⟨savedStore.store, by rfl, rfl, rfl⟩

def untornSteps : List (CallEnv × Op) :=
  [(⟨10, none⟩, .apply (linkUpEvent "e1" "ab" 1)),
    (⟨20, some ⟨.sync, "input/output error"⟩⟩, .applyBatch [linkDownEvent "e2" "ab" 2])]

theorem agrees_after_failed_sync :
    (runCalls savedStore untornSteps).AgreesWithFile ∧
      (runCalls savedStore untornSteps).store.snapshot.version = 2 := by
  refine ⟨?_, by decide⟩
  refine (agrees_with_file_iff savedStore (by decide) savedStore_agrees untornSteps).mpr ?_
    untornSteps [] rfl
  intro done step rest hsplit htorn
  have hmem : step ∈ untornSteps := by
    rw [hsplit]
    exact mem_append_right done mem_cons_self
  obtain ⟨⟨fault, hfault, hafter⟩, -⟩ := htorn
  rcases mem_pair.mp hmem with rfl | rfl
  · cases hfault
  · cases Option.some.inj hfault
    cases hafter

/-- The directory cannot be synced: the event is in the file, and the store does not have it. -/
theorem torn_by_failed_directory_sync :
    savedStore.AgreesWithFile ∧
      ¬ (call ⟨10, some ⟨.syncDir, "input/output error"⟩⟩ savedStore
        (.apply (linkUpEvent "e1" "ab" 1))).1.AgreesWithFile := by
  refine ⟨savedStore_agrees, fun hagrees => ?_⟩
  exact absurd (hagrees.version rfl) (by decide)

end StarFabric.Topology

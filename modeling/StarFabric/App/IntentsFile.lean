import StarFabric.App.Fencing

/-!
# The intents in memory and on disk

`SetIntents` writes the intents file and then assigns the intents in memory. A call that has written
may be overtaken by another one, and then the file has the intents of one call and the memory those
of the other (`overtakenMoves`). If no call writes while another one is between the two, the file
and the memory agree outside of that (`Agreement`).
-/

namespace StarFabric.App

open Durable EffectProgram Go List Machine Option

/-! ### What a restart loads -/

def intentsOf : Except ReadError PersistedIntents → Except ReadError (List RouteIntent)
  | .error e => .error e
  | .ok state =>
    if state.schemaVersion ≠ 1 then
      .error (.failed
        ("unsupported desired-intent schema version " ++ toString state.schemaVersion))
    else
      -- the file is checked again when it is read
      match checkIntents "persisted intent " [] state.intents with
      | .error e => .error (.failed e)
      | .ok () => .ok state.intents

def RestartLoads (file : Option PersistedIntents) (intents : List RouteIntent) : Prop :=
  ∃ state, file = some state ∧ intentsOf (.ok state) = .ok intents

variable {ids : List String} {intents : List RouteIntent}

theorem valid_of_checkIntents {kind : String} (h : checkIntents kind ids intents = .ok ()) :
    ∀ intent ∈ intents, intent.Valid := by
  induction intents generalizing ids with
  | nil => exact nofun
  | cons intent rest ih =>
    unfold checkIntents at h
    cases hvalid : intent.validate with
    | error e =>
      rw [hvalid] at h
      cases h
    | ok =>
      rw [hvalid] at h
      split_ifs at h
      exact forall_mem_cons.mpr ⟨RouteIntent.validate_eq_ok_iff.mp hvalid, ih h⟩

theorem checkIntents_kind {kind kind' : String} (h : checkIntents kind ids intents = .ok ()) :
    checkIntents kind' ids intents = .ok () := by
  induction intents generalizing ids with
  | nil => rfl
  | cons intent rest ih =>
    unfold checkIntents at h ⊢
    cases hvalid : intent.validate with
    | error e =>
      rw [hvalid] at h
      cases h
    | ok _ =>
      rw [hvalid] at h
      -- the texts differ, and the identifiers that were seen do not
      split_ifs at h ⊢
      exact ih h

theorem restartLoads_of_checked (h : checkIntents "intent " [] intents = .ok ()) :
    RestartLoads (some ⟨1, intents⟩) intents := by
  refine ⟨_, rfl, ?_⟩
  unfold intentsOf
  dsimp only
  rw [if_neg (not_not.mpr rfl), checkIntents_kind h]

/-! ### The stages of a call -/

def assigning (intents : List RouteIntent) : Prog iface Verdict :=
  .call (.setIntents intents) fun _ => .done .stop

def writing (intents : List RouteIntent) : Prog iface Verdict :=
  .call (.writeIntents ⟨1, intents⟩) fun
    | none => assigning intents
    | some _ => .done .stop

def afterCheck (intents : List RouteIntent) (leader : Bool) : Prog iface Verdict :=
  if leader = true ∧ checkIntents "intent " [] intents = .ok () then writing intents
  else .done .stop

theorem setIntents_program {cfg : Config} (hpath : cfg.intentsStatePath ≠ "")
    (intents : List RouteIntent) :
    (Job.setIntents intents).program cfg = .call .isLeader (afterCheck intents) := by
  have hpersist : persistIntents cfg intents = Ask.writeIntents ⟨1, intents⟩ := if_neg hpath
  refine congrArg (Prog.call (I := iface) Call.isLeader) (funext fun leader => ?_)
  cases leader with
  | false => rfl
  | true =>
    unfold afterCheck
    -- a list that does not pass the check is refused before anything is written
    cases hcheck : checkIntents "intent " [] intents with
    | error e => exact (if_neg fun h => nomatch h.2).symm
    | ok _ =>
      refine Eq.trans ?_ (if_pos ⟨rfl, rfl⟩).symm
      generalize persistIntents cfg intents = persist at hpersist
      subst hpersist
      refine congrArg (Prog.call (I := iface) (Call.writeIntents ⟨1, intents⟩))
        (funext fun err => ?_)
      cases err with
      | none => rfl
      | some e => rfl

inductive Stage (cfg : Config) (intents : List RouteIntent) : Prog iface Verdict → Prop
  | begins : Stage cfg intents ((Job.setIntents intents).program cfg)
  | writes (checked : checkIntents "intent " [] intents = .ok ()) :
      Stage cfg intents (writing intents)
  | assigns (checked : checkIntents "intent " [] intents = .ok ()) :
      Stage cfg intents (assigning intents)
  | ended : Stage cfg intents (.done .stop)

theorem stage_afterCheck (cfg : Config) (intents : List RouteIntent) (leader : Bool) :
    Stage cfg intents (afterCheck intents leader) := by
  unfold afterCheck
  split_ifs with h
  · exact .writes h.2
  · exact .ended

/-! ### The invariant -/

/-- No call is between its write and its assignment, and the file agrees with the memory; or one
call is, and the file has its intents. -/
inductive Agreement (s : State iface Job World) : Prop
  | between (none : ∀ i intents, ¬ s.Next i (.setIntents intents))
      (agrees : RestartLoads s.world.files.intents s.world.memory.intents)
  | during (i : ℕ) (intents : List RouteIntent) (next : s.Next i (.setIntents intents))
      (only : ∀ j intents', s.Next j (.setIntents intents') → j = i)
      (written : RestartLoads s.world.files.intents intents)

/-- Every thread is a call of `SetIntents`, and they agree with the file. -/
structure Tidy (cfg : Config) (s : State iface Job World) : Prop where
  stages : ∀ t ∈ s.threads, ∃ intents, Stage cfg intents t.rest
  agreement : Agreement s

/-- The moves of a system in which only `SetIntents` is called, and in which a write that fails
leaves the file as it was. -/
def SetsIntents : Move Job Env Bool → Prop
  | .spawn job => ∃ intents, job = .setIntents intents
  | .drift _ => True
  | .turn _ e => ∀ fault, e.writeFault = some fault → fault.step.afterRename = false

/-- No call writes while another one is about to assign what it has written. -/
def WritesAlone (m : Move Job Env Bool) (s : State iface Job World) : Prop :=
  ∀ i e state, m = .turn i e → s.Next i (.writeIntents state) →
    ∀ j intents, ¬ s.Next j (.setIntents intents)

variable {cfg : Config} {s : State iface Job World}

theorem Agreement.of_next {s' : State iface Job World} (h : Agreement s)
    (hfile : s'.world.files.intents = s.world.files.intents)
    (hmemory : s'.world.memory.intents = s.world.memory.intents)
    (hnext : ∀ i intents, s'.Next i (.setIntents intents) ↔ s.Next i (.setIntents intents)) :
    Agreement s' := by
  cases h with
  | between hnone hagrees =>
    refine .between (fun i intents hn => hnone i intents ((hnext i intents).mp hn)) ?_
    rw [hfile, hmemory]
    exact hagrees
  | during i intents hi honly hwritten =>
    refine .during i intents ((hnext i intents).mpr hi)
      (fun j intents' hn => honly j intents' ((hnext j intents').mp hn)) ?_
    rw [hfile]
    exact hwritten

variable {i : ℕ} {t : Thread iface Job} {w : World} {log : List (Entry iface Job World)}

theorem Agreement.set_quiet (h : Agreement s) {u : Thread iface Job} (ht : s.threads[i]? = some t)
    (hfile : w.files.intents = s.world.files.intents)
    (hmemory : w.memory.intents = s.world.memory.intents)
    (hbefore : ∀ intents k, t.rest ≠ .call (.setIntents intents) k)
    (hafter : ∀ intents k, u.rest ≠ .call (.setIntents intents) k) :
    Agreement ⟨w, s.threads.set i u, log⟩ := by
  have hlen := (List.getElem?_eq_some_iff.mp ht).1
  refine h.of_next hfile hmemory fun j intents => (next_set hlen).trans ?_
  constructor
  · rintro (⟨-, k, hrest⟩ | ⟨-, hnext⟩)
    · exact absurd hrest (hafter intents k)
    · exact hnext
  · rintro ⟨v, k, hv, hrest⟩
    refine .inr ⟨fun hji => ?_, v, k, hv, hrest⟩
    subst hji
    cases some.inj (ht.symm.trans hv)
    -- the thread itself was not about to assign
    exact hbefore intents k hrest

theorem afterCheck_ne_assign (intents intents' : List RouteIntent) (leader : Bool)
    (k : Unit → Prog iface Verdict) :
    afterCheck intents leader ≠ .call (.setIntents intents') k := by
  unfold afterCheck
  split_ifs <;> exact nofun

theorem agreement_of_written (hlen : i < s.threads.length)
    (hnone : ∀ j intents, ¬ s.Next j (.setIntents intents))
    (hwritten : RestartLoads w.files.intents intents) :
    Agreement ⟨w, s.threads.set i { t with rest := assigning intents }, log⟩ := by
  refine .during i intents ?_ ?_ hwritten
  · exact (next_set hlen).mpr (.inl ⟨rfl, _, rfl⟩)
  · intro j intents' hj
    rcases (next_set hlen).mp hj with ⟨hji, -⟩ | ⟨-, hold⟩
    · exact hji
    · exact absurd hold (hnone j intents')

theorem Agreement.assigned (h : Agreement s) (ht : s.threads[i]? = some t)
    (hrest : t.rest = assigning intents) :
    Agreement ⟨{ s.world with memory := { s.world.memory with intents := intents } },
      s.threads.set i { t with rest := .done .stop }, log⟩ := by
  have hlen := (List.getElem?_eq_some_iff.mp ht).1
  have hnext : s.Next i (.setIntents intents) := ⟨t, _, ht, hrest⟩
  cases h with
  | between hnone _ => exact absurd hnext (hnone i intents)
  | during j intents' hj honly hwritten =>
    cases honly i intents hnext
    obtain ⟨t', k', ht', hrest'⟩ := hj
    cases some.inj (ht.symm.trans ht')
    cases hrest.symm.trans hrest'
    -- its own assignment is behind it, and nobody else was about to assign
    refine .between (fun l intents'' hl => ?_) hwritten
    rcases (next_set hlen).mp hl with ⟨-, k'', hstop⟩ | ⟨hli, hold⟩
    · cases hstop
    · exact hli (honly l intents'' hold)

theorem Tidy.set (h : Tidy cfg s) {u : Thread iface Job} (intents : List RouteIntent)
    (hstage : Stage cfg intents u.rest) (hagreement : Agreement ⟨w, s.threads.set i u, log⟩) :
    Tidy cfg ⟨w, s.threads.set i u, log⟩ := by
  refine ⟨fun v hv => ?_, hagreement⟩
  rcases mem_or_eq_of_mem_set hv with hold | rfl
  · exact h.stages v hold
  · exact ⟨intents, hstage⟩

theorem tidy_call (hpath : cfg.intentsStatePath ≠ "") (h : Tidy cfg s) {e : Env}
    (hsafe : ∀ fault, e.writeFault = some fault → fault.step.afterRename = false)
    (halone : ∀ state, s.Next i (.writeIntents state) → ∀ j intents, ¬ s.Next j (.setIntents intents))
    {c : Call} {k : c.Answer → Prog iface Verdict} {x : c.Answer} (ht : s.threads[i]? = some t)
    (hrest : t.rest = .call (I := iface) c k) (hx : handle cfg e c s.world = some (x, w))
    (log : List (Entry iface Job World)) :
    Tidy cfg ⟨w, s.threads.set i { t with rest := k x }, log⟩ := by
  have hlen := (List.getElem?_eq_some_iff.mp ht).1
  obtain ⟨intents, hstage⟩ := h.stages t (List.mem_of_getElem? ht)
  generalize hp : t.rest = p at hstage hrest
  -- the stage says which call this is
  cases hstage with
  | begins =>
    rw [setIntents_program hpath] at hrest
    cases hrest
    cases hx
    refine h.set intents (stage_afterCheck cfg intents _) (h.agreement.set_quiet ht rfl rfl ?_ ?_)
    · intro intents' k' hcall
      rw [hp, setIntents_program hpath] at hcall
      cases hcall
    · exact fun intents' k' => afterCheck_ne_assign intents intents' _ k'
  | writes hchecked =>
    cases hrest
    have hnone := halone ⟨1, intents⟩ ⟨t, _, ht, hp⟩
    cases hfault : e.writeFault with
    | some fault =>
      have hwrite := writeFile_of_early_fault hpath (hsafe fault hfault)
        (⟨1, intents⟩ : PersistedIntents) s.world.files.intents
      simp only [handle, hfault, hwrite] at hx
      cases hx
      refine h.set intents .ended (h.agreement.set_quiet ht rfl rfl ?_ fun _ _ => nofun)
      exact fun intents' k' hcall => hnone i intents' ⟨t, k', ht, hcall⟩
    | none =>
      have hwrite := writeFile_of_no_fault hpath (⟨1, intents⟩ : PersistedIntents)
        s.world.files.intents
      simp only [handle, hfault, hwrite] at hx
      cases hx
      exact h.set intents (.assigns hchecked)
        (agreement_of_written hlen hnone (restartLoads_of_checked hchecked))
  | assigns hchecked =>
    cases hrest
    cases hx
    exact h.set intents .ended (h.agreement.assigned ht hp)
  | ended => cases hrest

theorem tidy_step (hpath : cfg.intentsStatePath ≠ "") (m : Move Job Env Bool)
    (s s' : State iface Job World) (h : Tidy cfg s) (hm : SetsIntents m ∧ WritesAlone m s)
    (hstep : (machine cfg).step m s = some s') : Tidy cfg s' := by
  cases m with
  | spawn job =>
    obtain ⟨intents, rfl⟩ := hm.1
    cases some.inj hstep
    refine ⟨fun t ht => ?_, h.agreement.of_next rfl rfl fun i intents' => next_append.trans ?_⟩
    · rcases mem_append.mp ht with hold | hnew
      · exact h.stages t hold
      · rw [mem_singleton.mp hnew]
        exact ⟨intents, .begins⟩
    · refine or_iff_left ?_
      rintro ⟨-, k, hrest⟩
      have hbegins := (setIntents_program hpath intents).symm.trans hrest
      cases hbegins
  | drift d =>
    cases some.inj hstep
    exact ⟨h.stages, h.agreement.of_next rfl rfl fun _ _ => Iff.rfl⟩
  | turn i e =>
    rcases turn_cases hstep with ⟨t, ht, hrest, -⟩ | ⟨t, c, k, x, w, ht, hrest, hx, rfl⟩
    · -- a call of `SetIntents` does not start over
      obtain ⟨intents, hstage⟩ := h.stages t (mem_of_getElem? ht)
      rw [hrest] at hstage
      cases hstage
    · exact tidy_call hpath h hm.1 (fun state hnext => hm.2 i e state rfl hnext) ht hrest hx _

/-- **The intents in memory and on disk agree** when all calls have returned, if no call has written
the file while another one was about to assign what it had written. -/
theorem intents_agree_with_file {cfg : Config} (hpath : cfg.intentsStatePath ≠ "") {w : World}
    (hw : RestartLoads w.files.intents w.memory.intents) {moves : List (Move Job Env Bool)}
    {s : State iface Job World} (hrun : (machine cfg).run moves { world := w } = some s)
    (hsets : ∀ m ∈ moves, SetsIntents m)
    (halone : ∀ done m rest mid, moves = done ++ m :: rest →
      (machine cfg).run done { world := w } = some mid → WritesAlone m mid)
    (hended : ∀ t ∈ s.threads, t.Ended) :
    RestartLoads s.world.files.intents s.world.memory.intents := by
  have hstart : Tidy cfg ({ world := w } : State iface Job World) := by
    refine ⟨fun t ht => absurd ht not_mem_nil, .between (fun i intents => ?_) hw⟩
    rintro ⟨t, k, ht, -⟩
    cases ht
  -- every move keeps the invariant
  have htidy : Tidy cfg s := by
    refine run_invariant_of_allowed (A := fun m s => SetsIntents m ∧ WritesAlone m s)
      (tidy_step hpath) (fun done m rest mid hsplit hmid => ?_) hrun hstart
    refine ⟨hsets m ?_, halone done m rest mid hsplit hmid⟩
    rw [hsplit]
    exact mem_append_right done mem_cons_self
  cases htidy.agreement with
  | between _ hagrees => exact hagrees
  -- a thread that is about to assign has not returned
  | during i intents hnext _ _ =>
    obtain ⟨t, k, ht, hrest⟩ := hnext
    exact absurd (hended t (mem_of_getElem? ht)) (ended_ne_call hrest)

/-! ### Two calls -/

def filedWorld : World :=
  { duoWorld with files := { intents := some ⟨1, duoWorld.memory.intents⟩ } }

def twoCalls : List (Move Job Env Bool) :=
  [.spawn (.setIntents duoWorld.memory.intents), .spawn (.setIntents [])]

def inTurns (threads : List ℕ) : List (Move Job Env Bool) :=
  threads.map fun i => .turn i { now := 10 }

def orderlyMoves : List (Move Job Env Bool) := twoCalls ++ inTurns [0, 0, 0, 1, 1, 1]

/-- The second call overtakes the first one between its write and its assignment. -/
def overtakenMoves : List (Move Job Env Bool) := twoCalls ++ inTurns [0, 0, 1, 1, 1, 0]

def aboutToWrite (t : Thread iface Job) : Bool :=
  match t.rest with
  | .call (.writeIntents _) _ => true
  | _ => false

def aboutToAssign (t : Thread iface Job) : Bool :=
  match t.rest with
  | .call (.setIntents _) _ => true
  | _ => false

def alone (s : State iface Job World) : Bool :=
  !(s.threads.any aboutToWrite && s.threads.any aboutToAssign)

theorem writesAlone_of_alone {m : Move Job Env Bool} (h : alone s = true) : WritesAlone m s := by
  rintro i e state - ⟨t, k, ht, hrest⟩ j intents ⟨u, k', hu, hrest'⟩
  have hwrite : s.threads.any aboutToWrite = true :=
    any_eq_true.mpr ⟨t, mem_of_getElem? ht, by unfold aboutToWrite; rw [hrest]⟩
  have hassign : s.threads.any aboutToAssign = true :=
    any_eq_true.mpr ⟨u, mem_of_getElem? hu, by unfold aboutToAssign; rw [hrest']⟩
  unfold alone at h
  rw [hwrite, hassign] at h
  cases h

theorem setsIntents_twoCalls (threads : List ℕ) :
    ∀ m ∈ twoCalls ++ inTurns threads, SetsIntents m := by
  intro m hm
  rcases mem_append.mp hm with hcall | hturn
  · rcases mem_pair.mp hcall with rfl | rfl
    · exact ⟨_, rfl⟩
    · exact ⟨_, rfl⟩
  · obtain ⟨i, -, rfl⟩ := mem_map.mp hturn
    exact nofun

theorem filedWorld_restartLoads : RestartLoads filedWorld.files.intents filedWorld.memory.intents :=
  restartLoads_of_checked rfl

theorem intents_agree_after_orderlyMoves : ∃ s,
    (machine duoConfig).run orderlyMoves { world := filedWorld } = some s ∧
      s.world.memory.intents = [] ∧ RestartLoads s.world.files.intents s.world.memory.intents := by
  have hrun : (machine duoConfig).run orderlyMoves { world := filedWorld } = some _ := rfl
  refine ⟨_, hrun, rfl, ?_⟩
  refine intents_agree_with_file (by decide) filedWorld_restartLoads hrun
    (setsIntents_twoCalls _) ?_ ?_
  · have halong : (machine duoConfig).along (fun _ => alone) orderlyMoves { world := filedWorld } =
        true := by decide +kernel
    exact fun done m rest mid hsplit hmid =>
      writesAlone_of_alone (of_along halong done m rest mid hsplit hmid)
  · decide

theorem overtaken_intents_differ : ∃ s,
    (machine duoConfig).run overtakenMoves { world := filedWorld } = some s ∧
      (∀ m ∈ overtakenMoves, SetsIntents m) ∧ (∀ t ∈ s.threads, t.Ended) ∧
      ¬ RestartLoads s.world.files.intents s.world.memory.intents := by
  refine ⟨_, rfl, setsIntents_twoCalls _, by decide, ?_⟩
  rintro ⟨state, hfile, hloads⟩
  cases some.inj hfile
  exact absurd hloads (by decide)

end StarFabric.App

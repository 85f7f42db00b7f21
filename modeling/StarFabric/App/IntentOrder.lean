import StarFabric.App.Fencing

/-!
# Plans from intents that were replaced

`Reconcile` reads the intents, builds a plan from them, and then applies it under the lock of the
reconciler. It may be overtaken by a `SetIntents` and by a second `Reconcile`, and then commit its
plan over the newer one (`overtakenReconcile`), unless the intents are assigned only while no call
is between reading them and its end (`AssignsAlone`).
-/

namespace StarFabric.App

open EffectProgram Go List Machine Option

/-- A `Reconcile` ends with its plan in force: its `Apply` leaves the reconciler in the phase
`committed`. -/
def Commits (e : Entry iface Job World) : Prop :=
  e.job = .reconcile ∧ ∃ r, e.call = Call.unlockReconciler r ∧ r.status.phase = .committed

/-- The intents are assigned only while no thread is between reading them and its end. -/
def AssignsAlone (m : Move Job Env Bool) (s : State iface Job World) : Prop :=
  ∀ i e intents, m = .turn i e → s.Next i (.setIntents intents) →
    ∀ j t, s.threads[j]? = some t →
      (∃ read ∈ s.log, read.thread = j ∧ read.call = Call.intents) → t.Ended

/-! ### A plan comes after the intents were read -/

/-- The gate of a `Reconcile`: it gives the lock of the reconciler back after it has read the
intents. -/
def readGate (job : Job) : Gate iface where
  opens c _ := c = Call.intents
  guards c := job = .reconcile ∧ ∃ r, c = Call.unlockReconciler r

theorem reconcile_keeps_read (cfg : Config) :
    (reconcile cfg).Keeps (readGate .reconcile) (fun _ _ => True) False := by
  refine Prog.keeps_ask (I := iface) (c := Call.isLeader) ?_ fun leader => ?_
  · rintro ⟨-, r, hcall⟩
    cases hcall
  cases leader with
  | false =>
    refine Prog.keeps_ask (I := iface) (c := Call.reconciler) ?_ fun _ => trivial
    rintro ⟨-, r, hcall⟩
    cases hcall
  | true =>
    -- the first thing that the leader does is to read the intents
    refine ⟨?_, fun intents => ?_⟩
    · rintro ⟨-, r, hcall⟩
      cases hcall
    exact Prog.keeps_of_opened (.inr rfl) fun _ => trivial

theorem program_keeps_read (cfg : Config) (job : Job) :
    (job.program cfg).Keeps (readGate job) (fun _ _ => True) False := by
  by_cases hjob : job = .reconcile
  · subst hjob
    exact (reconcile_keeps_read cfg).bind fun _ _ _ => trivial
  · exact Prog.keeps_of_unguarded (fun _ hguard => hjob hguard.1) fun _ _ => trivial

/-! ### Every interleaving -/

def namedConfig : Config :=
  { duoConfig with digest := fun payload => (payload.intents.map RouteIntent.id).foldl (· ++ ·) "" }

def newerIntents : List RouteIntent :=
  [{ id := "j", source := "a", destination := "b", destinationPrefix := "10.2.0.0/16" }]

def orderlyReconcile : List (Move Job Env Bool) :=
  .spawn (.setIntents newerIntents) :: turns 3 0 ++ .spawn .reconcile :: turns 30 1

/-- A `Reconcile` has built its plan when the intents are set. A second `Reconcile` runs to its end,
and then the first one does. -/
def overtakenReconcile : List (Move Job Env Bool) :=
  .spawn .reconcile :: turns 5 0 ++ .spawn (.setIntents newerIntents) :: turns 3 1 ++
    .spawn .reconcile :: turns 30 2 ++ turns 25 0

/-- A call that has read the intents has ended, or no thread is about to assign. -/
def assignsAlone (s : State iface Job World) : Bool :=
  s.threads.all (fun t => match t.rest with
    | .call (.setIntents _) _ => false
    | _ => true) ||
  s.log.all fun e => match (e.call : Call) with
    | .intents => false
    | _ => true

theorem assignsAlone_of_test {s : State iface Job World} {m : Move Job Env Bool}
    (h : assignsAlone s = true) : AssignsAlone m s := by
  rintro i e intents - ⟨t, k, ht, hrest⟩ j u - ⟨read, hread, -, hcall⟩
  rcases Bool.or_eq_true_iff.mp h with hthreads | hlog
  · have htest := all_eq_true.mp hthreads t (mem_of_getElem? ht)
    rw [hrest] at htest
    cases htest
  · have htest := all_eq_true.mp hlog read hread
    rw [hcall] at htest
    cases htest

def assignsNewer (e : Entry iface Job World) : Bool :=
  match (e.call : Call) with
  | .setIntents intents => intents = newerIntents
  | _ => false

theorem call_of_assignsNewer {e : Entry iface Job World} (h : assignsNewer e = true) :
    e.call = Call.setIntents newerIntents := by
  unfold assignsNewer at h
  split at h
  · next intents hcall => rw [hcall, of_decide_eq_true h]
  · cases h

def commits (e : Entry iface Job World) : Bool :=
  match e.job, (e.call : Call) with
  | .reconcile, .unlockReconciler r => r.status.phase = .committed
  | _, _ => false

theorem commits_of_test {e : Entry iface Job World} (h : commits e = true) : Commits e := by
  unfold commits at h
  split at h
  · next r hjob hcall => exact ⟨hjob, r, hcall, of_decide_eq_true h⟩
  · cases h

theorem exists_split {α : Type} {l : List α} {i j : ℕ} {a b : α} (ha : l[i]? = some a)
    (hb : l[i + 1 + j]? = some b) :
    ∃ before between after, l = before ++ a :: (between ++ b :: after) := by
  obtain ⟨hi, rfl⟩ := List.getElem?_eq_some_iff.mp ha
  rw [← List.getElem?_drop] at hb
  obtain ⟨hj, rfl⟩ := List.getElem?_eq_some_iff.mp hb
  refine ⟨l.take i, (l.drop (i + 1)).take j, (l.drop (i + 1)).drop (j + 1), ?_⟩
  rw [List.getElem_cons_drop, List.take_append_drop, List.getElem_cons_drop, List.take_append_drop]

theorem orderlyReconcile_milestones :
    ∃ s ∈ (machine namedConfig).run orderlyReconcile { world := duoWorld },
      ∃ assigned ∈ s.log[2]?, assignsNewer assigned = true ∧
      ∃ committed ∈ s.log[32]?, commits committed = true := by
  decide +kernel

/-- What matters in the log of a run. -/
inductive Milestone where
  | starts (thread : ℕ)
  | assigns (ids : List String)
  | commits (thread : ℕ) (ids : List String)
  deriving DecidableEq, Repr

/-- A `Reconcile` starts, intents are assigned, or a `Reconcile` commits a plan for intents. -/
def milestone (e : Entry iface Job World) : Option Milestone :=
  match e.job, (e.call : Call) with
  | .reconcile, .isLeader => some (.starts e.thread)
  | _, .setIntents intents => some (.assigns (intents.map RouteIntent.id))
  | .reconcile, .unlockReconciler r =>
    if r.status.phase = .committed then
      r.committedPlan.map fun plan => .commits e.thread (plan.intents.map RouteIntent.id)
    else none
  | _, _ => none

end StarFabric.App

import StarFabric.Lib.Threads

/-!
# Jobs that run alone

The *shared* jobs leave a condition `K v` on the world in place, where `v` stays fixed as long as
only they run (`Prog.Under`). An *exclusive* job may break `K v`, but puts some `K v'` back at its
end (`Prog.Secure`). `Machine.orderly_step` is the invariant of the runs in which no exclusive job
overlaps another job (`Allowed`).
-/

namespace EffectProgram

open List Option

variable {I : Interface} {J E W V α β : Type}

namespace Prog

/-! ### Programs that keep to a set of calls -/

/-- As long as the answers are in `A`, the calls are in `C`. -/
def Under (A : (c : I.Call) → I.Answer c → Prop) (C : I.Call → Prop) : Prog I α → Prop
  | done _ => True
  -- after an answer outside `A` nothing is asked of the program
  | call c k => C c ∧ ∀ x, A c x → Under A C (k x)

section Under

variable {A : (c : I.Call) → I.Answer c → Prop} {C : I.Call → Prop}

variable {c : I.Call}

theorem under_ask (h : C c) : Under A C (ask c) := ⟨h, fun _ _ => trivial⟩

theorem Under.bind {p : Prog I α} {f : α → Prog I β} (hp : Under A C p)
    (hf : ∀ a, Under A C (f a)) : Under A C (p >>= f) := by
  induction p with
  | done a => exact hf a
  | call c k ih => exact ⟨hp.1, fun x hx => ih x (hp.2 x hx)⟩

theorem under_ask_bind {f : I.Answer c → Prog I β} (h : C c) (hf : ∀ x, A c x → Under A C (f x)) :
    Under A C (ask c >>= f) := ⟨h, hf⟩

end Under

/-! ### Programs that are safe from a world on -/

/-- Whatever the choices from outside are, every call of the program is in `S` in the world it is
made in, and the program ends in `Q`. -/
def Secure (h : E → Handler I W) (S : I.Call → W → Prop) (Q : α → W → Prop) : Prog I α → W → Prop
  | done a, w => Q a w
  | call c k, w => S c w ∧ ∀ e, Secure h S Q (k (h e c w).1) (h e c w).2

section Secure

variable {h : E → Handler I W} {S : I.Call → W → Prop} {Q Q' : α → W → Prop}
  {R : β → W → Prop} {w : W}

variable {p : Prog I α}

theorem Secure.mono (hp : Secure h S Q p w) (hQ : ∀ a w, Q a w → Q' a w) : Secure h S Q' p w := by
  induction p generalizing w with
  | done a => exact hQ a w hp
  | call c k ih => exact ⟨hp.1, fun e => ih _ (hp.2 e)⟩

theorem Secure.weaken {S' : I.Call → W → Prop} (hp : Secure h S Q p w)
    (hS : ∀ c w, S c w → S' c w) :
    Secure h S' Q p w := by
  induction p generalizing w with
  | done a => exact hp
  | call c k ih => exact ⟨hS c w hp.1, fun e => ih _ (hp.2 e)⟩

theorem Secure.bind {f : α → Prog I β} (hp : Secure h S Q p w)
    (hf : ∀ a w, Q a w → Secure h S R (f a) w) : Secure h S R (p >>= f) w := by
  induction p generalizing w with
  | done a => exact hf a w hp
  | call c k ih => exact ⟨hp.1, fun e => ih _ (hp.2 e)⟩

/-- A program that keeps to a set of calls is safe in every world where these calls are, if they
keep it so. -/
theorem secure_of_under {A : (c : I.Call) → I.Answer c → Prop} {C : I.Call → Prop} {K : W → Prop}
    (hsafe : ∀ c w, K w → C c → S c w)
    (hkeep : ∀ e c w, K w → C c → A c (h e c w).1 ∧ K (h e c w).2) (hp : Under A C p) (hw : K w) :
    Secure h S (fun _ => K) p w := by
  induction p generalizing w with
  | done a => exact hw
  | call c k ih =>
    -- the call is one of `C`, so its answer is in `A` and the world stays in `K`
    refine ⟨hsafe c w hw hp.1, fun e => ?_⟩
    obtain ⟨hA, hK⟩ := hkeep e c w hw hp.1
    exact ih _ (hp.2 _ hA) hK

/-- The handler that keeps a log of the calls, each with the world it was made in. The choice from
outside for a call is looked up by the number of the calls before it. -/
def logged (h : E → Handler I W) (es : ℕ → E) : Handler I (W × List (I.Call × W)) := fun c s =>
  ((h (es s.2.length) c s.1).1, (h (es s.2.length) c s.1).2, s.2 ++ [(c, s.1)])

variable {log : List (I.Call × W)}

theorem log_append {c : I.Call} (hlog : ∀ entry ∈ log, S entry.1 entry.2) (hS : S c w) :
    ∀ entry ∈ log ++ [(c, w)], S entry.1 entry.2 := by
  intro entry hentry
  rcases mem_append.mp hentry with hold | hnew
  · exact hlog entry hold
  · rw [mem_singleton.mp hnew]
    exact hS

theorem Secure.run (hp : Secure h S Q p w) (es : ℕ → E) (hlog : ∀ entry ∈ log, S entry.1 entry.2) :
    (∀ entry ∈ (p.run (logged h es) (w, log)).2.2, S entry.1 entry.2) ∧
      Q (p.run (logged h es) (w, log)).1 (p.run (logged h es) (w, log)).2.1 := by
  induction p generalizing w log with
  | done a => exact ⟨hlog, hp⟩
  | call c k ih => exact ih _ (hp.2 _) (log_append hlog hp.1)

/-- Dropped before its end, a safe program leaves a log of safe calls, and a world in which the
next call would be safe. -/
theorem Secure.runFor (hp : Secure h S Q p w) (es : ℕ → E) (hlog : ∀ entry ∈ log, S entry.1 entry.2)
    (n : ℕ) :
    (∀ entry ∈ (p.runFor (logged h es) n (w, log)).2.2, S entry.1 entry.2) ∧
      ((∃ a, Q a (p.runFor (logged h es) n (w, log)).2.1) ∨
        ∃ c, S c (p.runFor (logged h es) n (w, log)).2.1) := by
  induction p generalizing w log n with
  | done a =>
    cases n with
    | zero => exact ⟨hlog, .inl ⟨a, hp⟩⟩
    | succ n => exact ⟨hlog, .inl ⟨a, hp⟩⟩
  | call c k ih =>
    cases n with
    | zero => exact ⟨hlog, .inr ⟨c, hp.1⟩⟩
    | succ n => exact ih _ (hp.2 _) (log_append hlog hp.1) n

end Secure
end Prog

/-! ### Machines -/

namespace Machine

/-- A job may start when everybody is through, and a shared job also next to shared jobs. -/
def Allowed (exclusive : J → Prop) : Move J E Empty → State I J W → Prop
  | .spawn job, s => ∀ t ∈ s.threads, t.Ended ∨ ¬ exclusive job ∧ ¬ exclusive t.job
  | _, _ => True

/-- What is known about the two kinds of jobs of a machine: the condition `K v` between exclusive
jobs, the answers `A v` and the calls `C v` of the shared jobs, and the safe calls `S`. The
handlers `h` are those of the machine, for calls that do not block. -/
structure Discipline (M : Machine I J E Empty W) (h : E → Handler I W) (exclusive : J → Prop)
    (K : V → W → Prop) (A : V → (c : I.Call) → I.Answer c → Prop) (C : V → I.Call → Prop)
    (S : I.Call → W → Prop) : Prop where
  handled : ∀ e c w r, M.handle e c w = some r → r = h e c w
  safe : ∀ v c w, K v w → C v c → S c w
  keeps : ∀ v e c w, K v w → C v c → A v c (h e c w).1 ∧ K v (h e c w).2
  shared : ∀ job v, ¬ exclusive job → (M.program job).Under (A v) (C v)
  alone : ∀ job v w, exclusive job → K v w →
    (M.program job).Secure h S (fun _ w' => ∃ v', K v' w') w

variable {M : Machine I J E Empty W} {h : E → Handler I W} {exclusive : J → Prop}
  {K : V → W → Prop} {A : V → (c : I.Call) → I.Answer c → Prop} {C : V → I.Call → Prop}
  {S : I.Call → W → Prop} {s s' : State I J W}

/-- Only shared jobs are on their way, or one exclusive job is. -/
inductive Phase (h : E → Handler I W) (exclusive : J → Prop) (K : V → W → Prop)
    (A : V → (c : I.Call) → I.Answer c → Prop) (C : V → I.Call → Prop)
    (S : I.Call → W → Prop) (s : State I J W) : Prop where
  | together (v : V) (world : K v s.world)
      (threads : ∀ t ∈ s.threads, t.Ended ∨ ¬ exclusive t.job ∧ t.rest.Under (A v) (C v))
  | alone (i : ℕ) (t : Thread I J) (thread : s.threads[i]? = some t) (job : exclusive t.job)
      (rest : t.rest.Secure h S (fun _ w' => ∃ v', K v' w') s.world)
      (others : ∀ j u, j ≠ i → s.threads[j]? = some u → u.Ended)

/-- Every call so far was safe, and the jobs on their way are as they should. -/
structure Orderly (h : E → Handler I W) (exclusive : J → Prop) (K : V → W → Prop)
    (A : V → (c : I.Call) → I.Answer c → Prop) (C : V → I.Call → Prop)
    (S : I.Call → W → Prop) (s : State I J W) : Prop where
  safe : ∀ entry ∈ s.log, S entry.call entry.world
  phase : Phase h exclusive K A C S s

theorem Phase.settled (hphase : Phase h exclusive K A C S s) (hended : ∀ t ∈ s.threads, t.Ended) :
    ∃ v, K v s.world := by
  cases hphase with
  | together v hworld _ => exact ⟨v, hworld⟩
  | alone i t ht _ hrest _ =>
    -- the program of the exclusive job is at its end, where it has put `K` back
    rw [hended t (mem_of_getElem? ht)] at hrest
    exact hrest

theorem Phase.spawn (D : Discipline M h exclusive K A C S) (hphase : Phase h exclusive K A C S s)
    (job : J) (hallowed : ∀ t ∈ s.threads, t.Ended ∨ ¬ exclusive job ∧ ¬ exclusive t.job) :
    Phase h exclusive K A C S
      { s with threads := s.threads ++ [{ job := job, rest := M.program job }] } := by
  by_cases hjob : exclusive job
  · -- everybody is through, and the job starts alone
    have hended : ∀ t ∈ s.threads, t.Ended := fun t ht =>
      (hallowed t ht).resolve_right fun hshared => hshared.1 hjob
    obtain ⟨v, hworld⟩ := hphase.settled hended
    refine .alone s.threads.length _ getElem?_concat_length hjob
      (D.alone job v _ hjob hworld) fun j u hj hu => ?_
    rcases thread_of_append hu with hold | ⟨hlast, -⟩
    · exact hended u (mem_of_getElem? hold)
    · exact absurd hlast hj
  · have hnew : ∀ v, ∀ t ∈ [({ job := job, rest := M.program job } : Thread I J)],
        t.Ended ∨ ¬ exclusive t.job ∧ t.rest.Under (A v) (C v) := by
      intro v t ht
      rw [mem_singleton.mp ht]
      exact .inr ⟨hjob, D.shared job v hjob⟩
    cases hphase with
    | together v hworld hthreads =>
      refine .together v hworld fun t ht => ?_
      rcases mem_append.mp ht with hold | hlast
      · exact hthreads t hold
      · exact hnew v t hlast
    | alone i t ht hexclusive hrest hothers =>
      -- the exclusive job must be through before a shared one starts
      have hended : ∀ u ∈ s.threads, u.Ended := by
        intro u hu
        obtain ⟨j, hj⟩ := mem_iff_getElem?.mp hu
        by_cases hij : j = i
        · subst hij
          cases some.inj (ht.symm.trans hj)
          exact (hallowed t hu).resolve_right fun hshared => hshared.2 hexclusive
        · exact hothers j u hij hj
      obtain ⟨v, hworld⟩ :=
        (Phase.alone i t ht hexclusive hrest hothers : Phase h exclusive K A C S s).settled hended
      refine .together v hworld fun u hu => ?_
      rcases mem_append.mp hu with hold | hlast
      · exact .inl (hended u hold)
      · exact hnew v u hlast

variable {i : ℕ} {t : Thread I J}

theorem Phase.set_alone (hlen : i < s.threads.length) (hjob : exclusive t.job)
    (hrest : t.rest.Secure h S (fun _ w' => ∃ v', K v' w') s.world)
    (hothers : ∀ j u, j ≠ i → s.threads[j]? = some u → u.Ended) :
    Phase h exclusive K A C S { s with threads := s.threads.set i t } := by
  refine .alone i t (getElem?_set_self hlen) hjob hrest fun j u hj hu => ?_
  rw [getElem?_set_ne (Ne.symm hj)] at hu
  exact hothers j u hj hu

theorem Phase.set_together {v : V} (hworld : K v s.world)
    (ht : ¬ exclusive t.job ∧ t.rest.Under (A v) (C v))
    (hthreads : ∀ u ∈ s.threads, u.Ended ∨ ¬ exclusive u.job ∧ u.rest.Under (A v) (C v)) :
    Phase h exclusive K A C S { s with threads := s.threads.set i t } := by
  refine .together v hworld fun u hu => ?_
  rcases mem_or_eq_of_mem_set hu with hold | rfl
  · exact hthreads u hold
  · exact .inr ht

theorem Phase.call (D : Discipline M h exclusive K A C S) (hphase : Phase h exclusive K A C S s)
    {e : E} {c : I.Call} {k : I.Answer c → Prog I Verdict} (ht : s.threads[i]? = some t)
    (hrest : t.rest = .call c k) :
    S c s.world ∧ Phase h exclusive K A C S
      { s with world := (h e c s.world).2
               threads := s.threads.set i { t with rest := k (h e c s.world).1 } } := by
  have hlen : i < s.threads.length := (List.getElem?_eq_some_iff.mp ht).1
  cases hphase with
  | together v hworld hthreads =>
    obtain ⟨hjob, hunder⟩ := (hthreads t (List.mem_of_getElem? ht)).resolve_left
      (ended_ne_call hrest)
    rw [hrest] at hunder
    obtain ⟨hanswer, hkept⟩ := D.keeps v e c s.world hworld hunder.1
    exact ⟨D.safe v c s.world hworld hunder.1, Phase.set_together
      (s := { s with world := (h e c s.world).2 }) hkept ⟨hjob, hunder.2 _ hanswer⟩ hthreads⟩
  | alone j u hu hjob hsecure hothers =>
    -- the others are through, so it is the exclusive job that moves
    have hij : i = j := by
      by_contra hne
      exact ended_ne_call hrest (hothers i t hne ht)
    subst hij
    cases some.inj (hu.symm.trans ht)
    rw [hrest] at hsecure
    exact ⟨hsecure.1, Phase.set_alone (s := { s with world := (h e c s.world).2 }) hlen hjob
      (hsecure.2 e) hothers⟩

theorem Phase.again (D : Discipline M h exclusive K A C S) (hphase : Phase h exclusive K A C S s)
    (ht : s.threads[i]? = some t) (hrest : t.rest = .done .again) :
    Phase h exclusive K A C S
      { s with threads := s.threads.set i ⟨t.job, t.pass + 1, M.program t.job⟩ } := by
  have hlen : i < s.threads.length := (List.getElem?_eq_some_iff.mp ht).1
  have hnot : ¬ t.Ended := by
    intro hended
    rw [Thread.Ended, hrest] at hended
    cases hended
  cases hphase with
  | together v hworld hthreads =>
    obtain ⟨hjob, -⟩ := (hthreads t (List.mem_of_getElem? ht)).resolve_left hnot
    exact Phase.set_together hworld ⟨hjob, D.shared t.job v hjob⟩ hthreads
  | alone j u hu hjob hsecure hothers =>
    have hij : i = j := by
      by_contra hne
      exact hnot (hothers i t hne ht)
    subst hij
    cases some.inj (hu.symm.trans ht)
    rw [hrest] at hsecure
    obtain ⟨v, hworld⟩ : ∃ v, K v s.world := hsecure
    exact Phase.set_alone hlen hjob (D.alone t.job v _ hjob hworld) hothers

theorem Phase.with_log (hphase : Phase h exclusive K A C S s) (log : List (Entry I J W)) :
    Phase h exclusive K A C S { s with log := log } := by
  cases hphase with
  | together v hworld hthreads => exact .together v hworld hthreads
  | alone i t ht hjob hsecure hothers => exact .alone i t ht hjob hsecure hothers

theorem orderly_step (D : Discipline M h exclusive K A C S) (m : Move J E Empty)
    (s s' : State I J W) (hs : Orderly h exclusive K A C S s) (hallowed : Allowed exclusive m s)
    (hstep : M.step m s = some s') : Orderly h exclusive K A C S s' := by
  cases m with
  | spawn job =>
    cases some.inj hstep
    exact ⟨hs.safe, hs.phase.spawn D job hallowed⟩
  | drift d => exact d.elim
  | turn i e =>
    rcases turn_cases hstep with ⟨t, ht, hrest, rfl⟩ | ⟨t, c, k, x, w, ht, hrest, hx, rfl⟩
    · exact ⟨hs.safe, hs.phase.again D ht hrest⟩
    · have hhandled := D.handled e c s.world _ hx
      obtain ⟨rfl, rfl⟩ := Prod.mk.inj hhandled
      obtain ⟨hsafe, hphase⟩ := hs.phase.call D (e := e) ht hrest
      refine ⟨fun entry hentry => ?_, hphase.with_log _⟩
      rcases mem_append.mp hentry with hold | hnew
      · exact hs.safe entry hold
      · rw [mem_singleton.mp hnew]
        exact hsafe

section Run

variable {moves : List (Move J E Empty)} {v : V} {w : W}

theorem orderly_of_run (D : Discipline M h exclusive K A C S) (hw : K v w)
    (hallowed : ∀ done m rest mid, moves = done ++ m :: rest →
      M.run done { world := w } = some mid → Allowed exclusive m mid)
    (hrun : M.run moves { world := w } = some s) : Orderly h exclusive K A C S s := by
  have hstart : Orderly h exclusive K A C S ({ world := w } : State I J W) :=
    ⟨nofun, .together v hw nofun⟩
  exact run_invariant_of_allowed (orderly_step D) hallowed hrun hstart

end Run

end Machine
end EffectProgram

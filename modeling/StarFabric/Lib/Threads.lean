import StarFabric.Lib.Prog
import Mathlib.Data.List.Induction

/-!
# Threads over one world

A `Machine` runs any number of programs side by side, call by call. The world may change by itself
(`Move.drift`), a call may block, and a job may start over, in its next *pass*. If the program of
each job keeps its gate (`Prog.Keeps`), then in the log of every run a guarded call has, before it
and in the same pass of the same thread, an answer that opened the gate
(`Machine.opened_of_guarded`).
-/

namespace EffectProgram

open List Option

variable {I : Interface} {J E D W α β : Type}

/-! ### Gates -/

/-- The guarded calls, and the answers that open the gate. -/
structure Gate (I : Interface) where
  opens : (c : I.Call) → I.Answer c → Prop
  guards : I.Call → Prop

namespace Prog

/-- With the gate opened or not at the start, the program makes no guarded call before the gate
is open, and ends in `Q`, which speaks about the result and about the gate. -/
def Keeps (G : Gate I) (Q : α → Prop → Prop) : Prog I α → Prop → Prop
  | done a, opened => Q a opened
  -- a gate that was opened stays open until the program ends
  | call c k, opened => (G.guards c → opened) ∧ ∀ x, Keeps G Q (k x) (opened ∨ G.opens c x)

variable {G : Gate I} {Q : α → Prop → Prop} {R : β → Prop → Prop} {opened opened' : Prop}

variable {p : Prog I α}

theorem keeps_of_opened (h : opened) (hQ : ∀ a, Q a True) : p.Keeps G Q opened := by
  induction p generalizing opened with
  | done a => simpa only [Keeps, h] using hQ a
  | call c k ih => exact ⟨fun _ => h, fun x => ih x (.inl h)⟩

theorem keeps_of_unguarded (h : ∀ c, ¬ G.guards c) (hQ : ∀ a o, Q a o) : p.Keeps G Q opened := by
  induction p generalizing opened with
  | done a => exact hQ a opened
  | call c k ih => exact ⟨fun hc => absurd hc (h c), fun x => ih x⟩

theorem Keeps.bind {f : α → Prog I β} (hp : p.Keeps G Q opened)
    (hf : ∀ a o, Q a o → (f a).Keeps G R o) : (p >>= f).Keeps G R opened := by
  induction p generalizing opened with
  | done a => exact hf a opened hp
  | call c k ih => exact ⟨hp.1, fun x => ih x (hp.2 x)⟩

theorem keeps_ask {c : I.Call} {f : I.Answer c → Prog I β} (hc : ¬ G.guards c)
    (hf : ∀ x, (f x).Keeps G R (opened ∨ G.opens c x)) : (ask c >>= f).Keeps G R opened :=
  ⟨fun h => absurd h hc, hf⟩

theorem Keeps.mono (hp : p.Keeps G (fun _ _ => True) opened) (h : opened → opened') :
    p.Keeps G (fun _ _ => True) opened' := by
  induction p generalizing opened opened' with
  | done a => trivial
  | call c k ih => exact ⟨fun hc => h (hp.1 hc), fun x => ih x (hp.2 x) (Or.imp_left h)⟩

end Prog

/-! ### Machines -/

inductive Verdict where
  | stop
  | again
  deriving DecidableEq, Repr

/-- The programs of the jobs, the answers of the world, and its own changes. The answers may
depend on a choice in `E` made from outside. -/
structure Machine (I : Interface) (J E D W : Type) where
  program : J → Prog I Verdict
  handle : E → (c : I.Call) → W → Option (I.Answer c × W)
  drift : D → W → W

/-- A thread: its job, the number of the pass, and what is left of the program. -/
structure Thread (I : Interface) (J : Type) where
  job : J
  pass : ℕ := 0
  rest : Prog I Verdict

def Thread.Ended (t : Thread I J) : Prop := t.rest = .done .stop

instance decidableEnded (t : Thread I J) : Decidable t.Ended :=
  match h : t.rest with
  | .done .stop => isTrue h
  | .done .again => isFalse fun hended => nomatch h.symm.trans hended
  | .call _ _ => isFalse fun hended => nomatch h.symm.trans hended

structure Entry (I : Interface) (J W : Type) where
  thread : ℕ
  pass : ℕ
  job : J
  call : I.Call
  answer : I.Answer call
  world : W

/-- What may happen next: a new thread, a change of the world, or a turn of a thread. -/
inductive Move (J E D : Type) where
  | spawn (job : J)
  | drift (d : D)
  | turn (thread : ℕ) (e : E)

namespace Machine

structure State (I : Interface) (J W : Type) where
  world : W
  threads : List (Thread I J) := []
  log : List (Entry I J W) := []

def State.Next (s : State I J W) (i : ℕ) (c : I.Call) : Prop :=
  ∃ t k, s.threads[i]? = some t ∧ t.rest = .call c k

def step (M : Machine I J E D W) : Move J E D → State I J W → Option (State I J W)
  | .spawn job, s =>
    some { s with threads := s.threads ++ [{ job := job, rest := M.program job }] }
  | .drift d, s => some { s with world := M.drift d s.world }
  | .turn i e, s =>
    match s.threads[i]? with
    | none => none
    | some t =>
      match t.rest with
      -- the job is through: the thread has no more turns
      | .done .stop => none
      | .done .again =>
        some { s with threads := s.threads.set i ⟨t.job, t.pass + 1, M.program t.job⟩ }
      | .call c k =>
        match M.handle e c s.world with
        -- the call blocks until the world has an answer
        | none => none
        | some (x, w) => some {
            world := w
            threads := s.threads.set i { t with rest := k x }
            log := s.log ++ [⟨i, t.pass, t.job, c, x, s.world⟩] }

def run (M : Machine I J E D W) : List (Move J E D) → State I J W → Option (State I J W)
  | [], s => some s
  | m :: moves, s => (M.step m s).bind (M.run moves)

variable {M : Machine I J E D W} {s s' : State I J W} {m : Move J E D}

variable {i : ℕ}

theorem turn_cases {e : E} (h : M.step (.turn i e) s = some s') :
    (∃ t, s.threads[i]? = some t ∧ t.rest = .done .again ∧
      s' = { s with threads := s.threads.set i ⟨t.job, t.pass + 1, M.program t.job⟩ }) ∨
    ∃ t c k x w, s.threads[i]? = some t ∧ t.rest = .call c k ∧
      M.handle e c s.world = some (x, w) ∧
      s' = ⟨w, s.threads.set i { t with rest := k x },
        s.log ++ [⟨i, t.pass, t.job, c, x, s.world⟩]⟩ := by
  unfold step at h
  dsimp only at h
  split at h
  · cases h
  next t ht =>
    split at h
    · cases h
    next hrest => exact .inl ⟨t, ht, hrest, (Option.some.inj h).symm⟩
    next c k hrest =>
      split at h
      · cases h
      next x w hx => exact .inr ⟨t, c, k, x, w, ht, hrest, hx, (Option.some.inj h).symm⟩

theorem step_cases (h : M.step m s = some s') :
    (∃ job, s' = { s with threads := s.threads ++ [{ job := job, rest := M.program job }] }) ∨
    (∃ d, s' = { s with world := M.drift d s.world }) ∨
    (∃ i t, s.threads[i]? = some t ∧ t.rest = .done .again ∧
      s' = { s with threads := s.threads.set i ⟨t.job, t.pass + 1, M.program t.job⟩ }) ∨
    ∃ i e t c k x w, s.threads[i]? = some t ∧ t.rest = .call c k ∧
      M.handle e c s.world = some (x, w) ∧
      s' = ⟨w, s.threads.set i { t with rest := k x },
        s.log ++ [⟨i, t.pass, t.job, c, x, s.world⟩]⟩ := by
  cases m with
  | spawn job => exact .inl ⟨job, (Option.some.inj h).symm⟩
  | drift d => exact .inr (.inl ⟨d, (Option.some.inj h).symm⟩)
  | turn i e =>
    rcases turn_cases h with ⟨t, hagain⟩ | ⟨t, c, k, x, w, hcall⟩
    · exact .inr (.inr (.inl ⟨i, t, hagain⟩))
    · exact .inr (.inr (.inr ⟨i, e, t, c, k, x, w, hcall⟩))

variable {t : Thread I J} {c : I.Call}

theorem ended_ne_call {k : I.Answer c → Prog I Verdict} (hrest : t.rest = .call c k) :
    ¬ t.Ended := by
  intro hended
  rw [Thread.Ended, hrest] at hended
  cases hended

variable {threads : List (Thread I J)}

theorem thread_of_append {u : Thread I J} (h : (threads ++ [t])[i]? = some u) :
    threads[i]? = some u ∨ i = threads.length ∧ u = t := by
  rw [List.getElem?_append] at h
  split_ifs at h with hlt
  · exact .inl h
  · have hlen := (List.getElem?_eq_some_iff.mp h).1
    rw [List.length_singleton] at hlen
    exact .inr ⟨by omega, List.mem_singleton.mp (List.mem_of_getElem? h)⟩

theorem thread_of_set {u : Thread I J} {j : ℕ} (h : (threads.set i t)[j]? = some u) :
    j = i ∧ u = t ∨ j ≠ i ∧ threads[j]? = some u := by
  rw [getElem?_set] at h
  split_ifs at h with hij
  · exact .inl ⟨hij.symm, (Option.some.inj h).symm⟩
  · exact .inr ⟨Ne.symm hij, h⟩

variable {w : W} {log : List (Entry I J W)}

theorem next_append :
    State.Next ⟨w, s.threads ++ [t], log⟩ i c ↔
      s.Next i c ∨ i = s.threads.length ∧ ∃ k, t.rest = .call c k := by
  constructor
  · rintro ⟨u, k, hu, hrest⟩
    rcases thread_of_append hu with hold | ⟨rfl, rfl⟩
    · exact .inl ⟨u, k, hold, hrest⟩
    · exact .inr ⟨rfl, k, hrest⟩
  · rintro (⟨u, k, hu, hrest⟩ | ⟨rfl, k, hrest⟩)
    · have hlt := (List.getElem?_eq_some_iff.mp hu).1
      exact ⟨u, k, (List.getElem?_append_left hlt).trans hu, hrest⟩
    · exact ⟨t, k, List.getElem?_concat_length, hrest⟩

theorem next_set {j : ℕ} (hi : i < s.threads.length) :
    State.Next ⟨w, s.threads.set i t, log⟩ j c ↔
      (j = i ∧ ∃ k, t.rest = .call c k) ∨ j ≠ i ∧ s.Next j c := by
  constructor
  · rintro ⟨u, k, hu, hrest⟩
    rcases thread_of_set hu with ⟨rfl, rfl⟩ | ⟨hne, hold⟩
    · exact .inl ⟨rfl, k, hrest⟩
    · exact .inr ⟨hne, u, k, hold, hrest⟩
  · rintro (⟨rfl, k, hrest⟩ | ⟨hne, u, k, hu, hrest⟩)
    · exact ⟨t, k, getElem?_set_self hi, hrest⟩
    · exact ⟨u, k, (getElem?_set_ne (Ne.symm hne)).trans hu, hrest⟩

variable {P : State I J W → Prop} {moves : List (Move J E D)}

theorem run_invariant (hstep : ∀ m s s', P s → M.step m s = some s' → P s')
    (hrun : M.run moves s = some s') (h : P s) : P s' := by
  induction moves generalizing s with
  | nil => exact Option.some.inj hrun ▸ h
  | cons m moves ih =>
    obtain ⟨next, hnext, hrest⟩ := bind_eq_some_iff.mp hrun
    exact ih hrest (hstep m s next h hnext)

theorem run_invariant_of_allowed {A : Move J E D → State I J W → Prop}
    (hstep : ∀ m s s', P s → A m s → M.step m s = some s' → P s')
    (hallowed : ∀ done m rest mid, moves = done ++ m :: rest → M.run done s = some mid → A m mid)
    (hrun : M.run moves s = some s') (h : P s) : P s' := by
  induction moves generalizing s with
  | nil => exact Option.some.inj hrun ▸ h
  | cons m moves ih =>
    obtain ⟨next, hnext, hrest⟩ := bind_eq_some_iff.mp hrun
    -- a place in the rest of the run is one place later in the run
    refine ih (fun done m' rest mid hsplit hmid => ?_) hrest
      (hstep m s next h (hallowed [] m moves s rfl rfl) hnext)
    refine hallowed (m :: done) m' rest mid (by rw [hsplit, cons_append]) ?_
    show (M.step m s).bind (M.run done) = some mid
    rw [hnext, bind_some]
    exact hmid

def along (M : Machine I J E D W) (test : Move J E D → State I J W → Bool) :
    List (Move J E D) → State I J W → Bool
  | [], _ => true
  | m :: moves, s => test m s && (M.step m s).all (M.along test moves)

theorem of_along {test : Move J E D → State I J W → Bool} (h : M.along test moves s = true) :
    ∀ done m rest mid, moves = done ++ m :: rest → M.run done s = some mid → test m mid = true := by
  induction moves generalizing s with
  | nil => exact fun done m rest mid hsplit => absurd hsplit (by simp)
  | cons m moves ih =>
    intro done m' rest mid hsplit hrun
    obtain ⟨hfirst, hrest⟩ := Bool.and_eq_true_iff.mp h
    cases done with
    | nil =>
      cases hsplit
      cases Option.some.inj hrun
      exact hfirst
    | cons m₀ done =>
      cases hsplit
      obtain ⟨next, hnext, hdone⟩ := bind_eq_some_iff.mp hrun
      rw [hnext] at hrest
      exact ih hrest done m' rest mid rfl hdone

/-! ### Where a call in the log was made -/

theorem split_concat {l before after : List α} {a e : α} (h : l ++ [a] = before ++ e :: after) :
    (before = l ∧ e = a ∧ after = []) ∨ ∃ init, after = init ++ [a] ∧ l = before ++ e :: init := by
  rcases eq_nil_or_concat after with rfl | ⟨init, last, rfl⟩
  · obtain ⟨hbefore, hlast⟩ := append_inj' h rfl
    exact .inl ⟨hbefore.symm, (singleton_inj.mp hlast).symm, rfl⟩
  · have hsplit : l ++ [a] = (before ++ e :: init) ++ [last] := by
      rw [h, concat_eq_append, append_assoc, cons_append]
    obtain ⟨hl, hlast⟩ := append_inj' hsplit rfl
    cases singleton_inj.mp hlast
    exact .inr ⟨init, concat_eq_append, hl⟩

theorem run_append (M : Machine I J E D W) (first second : List (Move J E D)) (s : State I J W) :
    M.run (first ++ second) s = (M.run first s).bind (M.run second) := by
  induction first generalizing s with
  | nil => rfl
  | cons m first ih =>
    show (M.step m s).bind (M.run (first ++ second)) = ((M.step m s).bind (M.run first)).bind _
    rw [bind_assoc]
    congr 1
    funext next
    exact ih next

theorem run_singleton (M : Machine I J E D W) (m : Move J E D) (s : State I J W) :
    M.run [m] s = M.step m s := by
  show (M.step m s).bind some = M.step m s
  cases M.step m s <;> rfl

theorem log_step (h : M.step m s = some s') :
    s'.log = s.log ∨ ∃ i e entry, m = .turn i e ∧ s'.log = s.log ++ [entry] ∧ entry.thread = i ∧
      entry.world = s.world ∧ s.Next i entry.call := by
  cases m with
  | spawn job =>
    cases Option.some.inj h
    exact .inl rfl
  | drift d =>
    cases Option.some.inj h
    exact .inl rfl
  | turn i e =>
    rcases turn_cases h with ⟨t, -, -, rfl⟩ | ⟨t, c, k, x, w, ht, hrest, -, rfl⟩
    · exact .inl rfl
    · exact .inr ⟨i, e, _, rfl, rfl, rfl, rfl, t, k, ht, hrest⟩

theorem exists_turn_of_log {s₀ : State I J W} (hempty : s₀.log = [])
    (hrun : M.run moves s₀ = some s) {before after : List (Entry I J W)} {entry : Entry I J W}
    (hlog : s.log = before ++ entry :: after) :
    ∃ done e rest mid, moves = done ++ .turn entry.thread e :: rest ∧
      M.run done s₀ = some mid ∧ mid.log = before ∧ mid.Next entry.thread entry.call ∧
      M.run (.turn entry.thread e :: rest) mid = some s := by
  -- from the end: the log grows at its end
  induction moves using reverseRecOn generalizing s after with
  | nil =>
    cases Option.some.inj hrun
    rw [hempty] at hlog
    exact absurd hlog.symm (by simp)
  | append_singleton moves m ih =>
    rw [run_append] at hrun
    obtain ⟨last, hlast, hstep⟩ := bind_eq_some_iff.mp hrun
    rw [run_singleton] at hstep
    -- the entry was there before the last move, or it is the one that the last move has added
    have hearlier : ∀ after', last.log = before ++ entry :: after' →
        ∃ done e rest mid, moves ++ [m] = done ++ .turn entry.thread e :: rest ∧
          M.run done s₀ = some mid ∧ mid.log = before ∧ mid.Next entry.thread entry.call ∧
          M.run (.turn entry.thread e :: rest) mid = some s := by
      intro after' hbefore
      obtain ⟨done, e, rest, mid, rfl, hmid, hmidlog, hnext, hrest⟩ := ih hlast hbefore
      refine ⟨done, e, rest ++ [m], mid, by simp, hmid, hmidlog, hnext, ?_⟩
      rw [← cons_append, run_append, hrest, bind_some, run_singleton]
      exact hstep
    rcases log_step hstep with hsame | ⟨i, e, new, rfl, hadd, hthread, -, hnext⟩
    · exact hearlier after (hsame ▸ hlog)
    · rw [hadd] at hlog
      rcases split_concat hlog with ⟨hbefore, rfl, -⟩ | ⟨init, -, hold⟩
      · subst hthread
        exact ⟨moves, e, [], last, rfl, hlast, hbefore.symm, hnext,
          by rw [run_singleton]; exact hstep⟩
      · exact hearlier init hold

theorem ended_step (ht : s.threads[i]? = some t) (hended : t.Ended) (hstep : M.step m s = some s') :
    s'.threads[i]? = some t ∧
      ∃ more, s'.log = s.log ++ more ∧ ∀ entry ∈ more, entry.thread ≠ i := by
  have hsilent : ∃ more : List (Entry I J W), s.log = s.log ++ more ∧
      ∀ entry ∈ more, entry.thread ≠ i :=
    ⟨[], (List.append_nil _).symm, nofun⟩
  have hlen := (List.getElem?_eq_some_iff.mp ht).1
  -- whoever moves, it is another thread
  rcases step_cases hstep with
    ⟨job, rfl⟩ | ⟨d, rfl⟩ | ⟨j, u, hu, hrest, rfl⟩ | ⟨j, e, u, c, k, x, w, hu, hrest, -, rfl⟩
  · exact ⟨(List.getElem?_append_left hlen).trans ht, hsilent⟩
  · exact ⟨ht, hsilent⟩
  · have hne : j ≠ i := by
      rintro rfl
      cases Option.some.inj (ht.symm.trans hu)
      exact nomatch hended.symm.trans hrest
    exact ⟨(List.getElem?_set_ne hne).trans ht, hsilent⟩
  · have hne : j ≠ i := by
      rintro rfl
      cases Option.some.inj (ht.symm.trans hu)
      exact ended_ne_call hrest hended
    refine ⟨(List.getElem?_set_ne hne).trans ht, _, rfl, fun entry hentry => ?_⟩
    rw [List.mem_singleton.mp hentry]
    exact hne

theorem log_of_ended (ht : s.threads[i]? = some t) (hended : t.Ended)
    (hrun : M.run moves s = some s') :
    ∃ more, s'.log = s.log ++ more ∧ ∀ entry ∈ more, entry.thread ≠ i := by
  induction moves generalizing s with
  | nil =>
    cases Option.some.inj hrun
    exact ⟨[], (append_nil _).symm, nofun⟩
  | cons m moves ih =>
    obtain ⟨next, hnext, hrest⟩ := bind_eq_some_iff.mp hrun
    -- the first move adds no call of the thread, and leaves it through
    obtain ⟨hstill, more, hlog, hmore⟩ := ended_step ht hended hnext
    obtain ⟨later, hlater, hothers⟩ := ih hstill hrest
    refine ⟨more ++ later, by rw [hlater, hlog, append_assoc], fun entry hentry => ?_⟩
    rcases mem_append.mp hentry with hsoon | hlate
    · exact hmore entry hsoon
    · exact hothers entry hlate

theorem thread_of_log (hrun : M.run moves { world := w } = some s) :
    ∀ entry ∈ s.log, entry.thread < s.threads.length := by
  refine run_invariant (P := fun s => ∀ entry ∈ s.log, entry.thread < s.threads.length)
    (fun m s s' h hstep => ?_) hrun nofun
  obtain ⟨job, rfl⟩ | ⟨d, rfl⟩ | ⟨i, t, -, -, rfl⟩ | ⟨i, e, t, c, k, x, w, ht, -, -, rfl⟩ :=
    step_cases hstep
  · intro entry hentry
    show entry.thread < (s.threads ++ [_]).length
    rw [List.length_append]
    exact Nat.lt_add_right _ (h entry hentry)
  · exact h
  · intro entry hentry
    show entry.thread < (s.threads.set i _).length
    rw [List.length_set]
    exact h entry hentry
  · intro entry hentry
    show entry.thread < (s.threads.set i _).length
    rw [List.length_set]
    rcases List.mem_append.mp hentry with hold | hnew
    · exact h entry hold
    · rw [List.mem_singleton.mp hnew]
      exact (List.getElem?_eq_some_iff.mp ht).1

/-! ### The log -/

def Answered (M : Machine I J E D W) (s : State I J W) : Prop :=
  ∀ entry ∈ s.log, ∃ e w, M.handle e entry.call entry.world = some (entry.answer, w)

theorem answered_step (m : Move J E D) (s s' : State I J W) (h : M.Answered s)
    (hstep : M.step m s = some s') : M.Answered s' := by
  obtain ⟨job, rfl⟩ | ⟨d, rfl⟩ | ⟨i, t, -, -, rfl⟩ | ⟨i, e, t, c, k, x, w, -, -, hx, rfl⟩ :=
    step_cases hstep
  · exact h
  · exact h
  · exact h
  · intro entry hentry
    rcases mem_append.mp hentry with hold | hnew
    · exact h entry hold
    · rw [mem_singleton.mp hnew]
      exact ⟨e, w, hx⟩

def Opened (G : Gate I) (log : List (Entry I J W)) (thread pass : ℕ) : Prop :=
  ∃ e ∈ log, e.thread = thread ∧ e.pass = pass ∧ G.opens e.call e.answer

theorem Opened.append {G : Gate I} {more : List (Entry I J W)} {thread pass : ℕ}
    (h : Opened G log thread pass) : Opened G (log ++ more) thread pass := by
  obtain ⟨e, he, hopens⟩ := h
  exact ⟨e, mem_append_left more he, hopens⟩

/-- Guarded calls of the past were made behind an open gate, and what is left of the threads
keeps to that. -/
structure Fenced (G : J → Gate I) (s : State I J W) : Prop where
  past : ∀ before e after, s.log = before ++ e :: after → (G e.job).guards e.call →
    Opened (G e.job) before e.thread e.pass
  rest : ∀ i (t : Thread I J), s.threads[i]? = some t →
    t.rest.Keeps (G t.job) (fun _ _ => True) (Opened (G t.job) s.log i t.pass)

variable {G : J → Gate I}

theorem Fenced.set_thread (h : Fenced G s)
    (ht : t.rest.Keeps (G t.job) (fun _ _ => True) (Opened (G t.job) s.log i t.pass)) :
    Fenced G { s with threads := s.threads.set i t } where
  past := h.past
  rest j u hu := by
    rcases thread_of_set hu with ⟨rfl, rfl⟩ | ⟨-, hold⟩
    · exact ht
    · exact h.rest j u hold

variable {e : Entry I J W}

theorem Fenced.log_call (h : Fenced G s)
    (he : (G e.job).guards e.call → Opened (G e.job) s.log e.thread e.pass) :
    Fenced G { s with log := s.log ++ [e] } where
  past before e' after hlog hguard := by
    change s.log ++ [e] = _ at hlog
    rcases split_concat hlog with ⟨rfl, rfl, -⟩ | ⟨init, -, hold⟩
    · exact he hguard
    · exact h.past before e' init hold hguard
  rest i t ht := (h.rest i t ht).mono Opened.append

theorem fenced_step (hM : ∀ job, (M.program job).Keeps (G job) (fun _ _ => True) False)
    (m : Move J E D) (s s' : State I J W) (h : Fenced G s) (hstep : M.step m s = some s') :
    Fenced G s' := by
  obtain ⟨job, rfl⟩ | ⟨d, rfl⟩ | ⟨i, t, -, -, rfl⟩ | ⟨i, e, t, c, k, x, w, ht, hrest, -, rfl⟩ :=
    step_cases hstep
  · refine ⟨h.past, fun i t ht => ?_⟩
    rcases thread_of_append ht with hold | ⟨-, rfl⟩
    · exact h.rest i t hold
    · -- the new thread has made no call yet
      exact (hM job).mono False.elim
  · exact ⟨h.past, h.rest⟩
  · -- in its next pass the gate is closed again
    exact h.set_thread ((hM t.job).mono False.elim)
  · -- the thread was allowed to make the call, and its answer may have opened the gate
    have hkeeps := h.rest i t ht
    rw [hrest] at hkeeps
    have hlogged := h.log_call (e := ⟨i, t.pass, t.job, c, x, s.world⟩) hkeeps.1
    have hnext := hlogged.set_thread (i := i) (t := { t with rest := k x })
      ((hkeeps.2 x).mono fun hopened => by
        rcases hopened with hopened | hopens
        · exact hopened.append
        · exact ⟨_, mem_append_right s.log mem_cons_self, rfl, rfl, hopens⟩)
    exact ⟨hnext.past, hnext.rest⟩

/-- **Guarded calls come after the gate was opened.** In every run from a world without threads,
before every guarded call there is an answer that opened the gate of its job, given to the same
thread in the same pass. -/
theorem opened_of_guarded (hM : ∀ job, (M.program job).Keeps (G job) (fun _ _ => True) False)
    (hrun : M.run moves { world := w } = some s) {before after : List (Entry I J W)}
    (hlog : s.log = before ++ e :: after) (hguard : (G e.job).guards e.call) :
    Opened (G e.job) before e.thread e.pass := by
  have hstart : Fenced G ({ world := w } : State I J W) :=
    ⟨fun before e after h => absurd h (by simp), fun i t h => absurd h (by simp)⟩
  exact (run_invariant (fenced_step hM) hrun hstart).past before e after hlog hguard

theorem answered_of_run (hrun : M.run moves { world := w } = some s) : M.Answered s :=
  run_invariant answered_step hrun nofun

end Machine
end EffectProgram

import StarFabric.Lib.Threads

/-!
# Threads that rely on each other

Between two calls of a thread the world changes only along `rel` and stays in `inv`, and each of its
own calls does the same (`Rely`). `ok` is a condition on the run. `Prog.Within` says this of a
single program, from a world on, by following its calls. `Machine.kept_of_run` carries it over to
every interleaving.
-/

namespace EffectProgram

open List Option

variable {I : Interface} {J E D W α β : Type}

/-- What threads may rely on: the worlds, the condition on the run, and how the world moves. -/
structure Rely (W : Type) where
  inv : W → Prop
  ok : W → Prop := fun _ => True
  rel : W → W → Prop
  refl : ∀ w, rel w w
  trans : ∀ {a b c}, rel a b → rel b c → rel a c

abbrev Asked (I : Interface) := (c : I.Call) × I.Answer c

namespace Prog

section Within

variable (h : E → (c : I.Call) → W → Option (I.Answer c × W)) (L : Rely W)
  (S : List (Asked I) → (c : I.Call) → I.Answer c → W → W → Prop)

/-- Between two calls the world moves along the relation. Each call does so too, and is in `S`,
which sees the calls before it. The results are in `Q`, which sees the world at the end. -/
def Within (Q : α → W → Prop) : Prog I α → List (Asked I) → W → Prop
  | done a, _, w => Q a w
  -- the others have moved the world from `w` to `w'` before the call is made
  | call c k, own, w => ∀ w', L.rel w w' → L.inv w' → L.ok w' →
      ∀ e x w'', h e c w' = some (x, w'') →
        S own c x w' w'' ∧ L.inv w'' ∧ L.rel w' w'' ∧ Within Q (k x) (own ++ [⟨c, x⟩]) w''

end Within

variable {h : E → (c : I.Call) → W → Option (I.Answer c × W)} {L : Rely W}
  {S : List (Asked I) → (c : I.Call) → I.Answer c → W → W → Prop} {Q : α → W → Prop}
  {R : β → W → Prop} {own : List (Asked I)} {w w' : W}

theorem Within.later {p : Prog I α} (hp : Within h L S (fun _ _ => True) p own w)
    (hw : L.rel w w') : Within h L S (fun _ _ => True) p own w' := by
  cases p with
  | done a => trivial
  | call c k =>
    intro v hv hinv hok e x v' hx
    -- the first call is made in a world that both `w` and `w'` lead to
    exact hp v (L.trans hw hv) hinv hok e x v' hx

/-- **Sequencing.** What the second program starts from is a later world, and it has the calls of
the first one behind it. -/
theorem Within.bind {p : Prog I α} {f : α → Prog I β} (hp : Within h L S Q p own w)
    (hf : ∀ a more v, L.rel w v → Q a v → Within h L S R (f a) (own ++ more) v) :
    Within h L S R (p >>= f) own w := by
  -- the calls that are behind a program grow with each call, and so does the world's way
  induction p generalizing own w with
  | done a =>
    -- the first program made no calls at all
    have hstart := hf a [] w (L.refl w) hp
    rw [append_nil] at hstart
    exact hstart
  | call c k ih =>
    intro v hv hinv hok e x v' hx
    obtain ⟨hS, hinv', hrel, hk⟩ := hp v hv hinv hok e x v' hx
    refine ⟨hS, hinv', hrel, ih x hk fun a more u hu ha => ?_⟩
    rw [append_assoc]
    exact hf a ([⟨c, x⟩] ++ more) u (L.trans (L.trans hv hrel) hu) ha

end Prog

namespace Machine

def asked : List (Entry I J W) → ℕ → ℕ → List (Asked I)
  | [], _, _ => []
  | e :: log, thread, pass =>
    if e.thread = thread ∧ e.pass = pass then ⟨e.call, e.answer⟩ :: asked log thread pass
    else asked log thread pass

theorem asked_append (log more : List (Entry I J W)) (thread pass : ℕ) :
    asked (log ++ more) thread pass = asked log thread pass ++ asked more thread pass := by
  induction log with
  | nil => rfl
  | cons e log ih =>
    rw [cons_append, asked, asked, ih]
    split_ifs <;> rfl

variable {M : Machine I J E D W} {L : Rely W} {P : J → Prop}
  {S : J → List (Asked I) → (c : I.Call) → I.Answer c → W → W → Prop} {s s' : State I J W}

/-- What a machine has to satisfy for the jobs in `P`: their programs keep to the relation, and so
do the changes that the world makes by itself. -/
structure Relies (M : Machine I J E D W) (L : Rely W) (P : J → Prop)
    (S : J → List (Asked I) → (c : I.Call) → I.Answer c → W → W → Prop) : Prop where
  drift : ∀ d w, L.inv w → L.inv (M.drift d w) ∧ L.rel w (M.drift d w)
  program : ∀ job own w, P job → L.inv w →
    (M.program job).Within M.handle L (S job) (fun _ _ => True) own w

/-- What is left of each thread keeps to the relation, and so did every call in the log. -/
structure Kept (M : Machine I J E D W) (L : Rely W) (P : J → Prop)
    (S : J → List (Asked I) → (c : I.Call) → I.Answer c → W → W → Prop) (s : State I J W) :
    Prop where
  world : L.inv s.world
  threads : ∀ (i : ℕ) t, s.threads[i]? = some t → P t.job ∧
    t.rest.Within M.handle L (S t.job) (fun _ _ => True) (asked s.log i t.pass) s.world
  log : ∀ before entry after, s.log = before ++ entry :: after →
    ∃ w', S entry.job (asked before entry.thread entry.pass) entry.call entry.answer entry.world w'

/-- The moves of which the runs are made: the jobs are in `P`, and the world is `ok`. -/
def Fair (L : Rely W) (P : J → Prop) (m : Move J E D) (s : State I J W) : Prop :=
  L.ok s.world ∧ ∀ job, m = .spawn job → P job

theorem Kept.call (h : Kept M L P S s) (hok : L.ok s.world) {e : E} {i : ℕ} {t : Thread I J}
    (ht : s.threads[i]? = some t) {c : I.Call} {k : I.Answer c → Prog I Verdict}
    (hrest : t.rest = .call c k) {x : I.Answer c} {w : W}
    (hx : M.handle e c s.world = some (x, w)) :
    S t.job (asked s.log i t.pass) c x s.world w ∧ L.inv w ∧ L.rel s.world w ∧
      (k x).Within M.handle L (S t.job) (fun _ _ => True) (asked s.log i t.pass ++ [⟨c, x⟩]) w := by
  -- nobody has moved since the invariant was established, so the call meets the same world
  have hwithin := (h.threads i t ht).2
  rw [hrest] at hwithin
  exact hwithin s.world (L.refl s.world) h.world hok e x w hx

theorem kept_step (hM : Relies M L P S) (m : Move J E D) (s s' : State I J W)
    (h : Kept M L P S s) (hfair : Fair L P m s) (hstep : M.step m s = some s') :
    Kept M L P S s' := by
  cases m with
  | spawn job =>
    cases some.inj hstep
    refine ⟨h.world, fun i t ht => ?_, h.log⟩
    rcases thread_of_append ht with hold | ⟨-, rfl⟩
    · exact h.threads i t hold
    · -- the new thread starts its program in the world of this moment
      exact ⟨hfair.2 job rfl, hM.program job _ s.world (hfair.2 job rfl) h.world⟩
  | drift d =>
    cases some.inj hstep
    obtain ⟨hinv, hrel⟩ := hM.drift d s.world h.world
    exact ⟨hinv, fun i t ht => ⟨(h.threads i t ht).1, (h.threads i t ht).2.later hrel⟩, h.log⟩
  | turn i e =>
    rcases turn_cases hstep with ⟨t, ht, -, rfl⟩ | ⟨t, c, k, x, w, ht, hrest, hx, rfl⟩
    · -- a job that ended starts its program again
      refine ⟨h.world, fun j u hu => ?_, h.log⟩
      rcases thread_of_set hu with ⟨-, rfl⟩ | ⟨-, hold⟩
      · have hjob := (h.threads i t ht).1
        exact ⟨hjob, hM.program t.job _ s.world hjob h.world⟩
      · exact h.threads j u hold
    · obtain ⟨hS, hinv, hrel, hk⟩ := h.call hfair.1 ht hrest hx
      refine ⟨hinv, fun j u hu => ?_, fun before entry after hlog => ?_⟩
      · show P u.job ∧ u.rest.Within _ _ _ _ (asked (s.log ++ [_]) j u.pass) w
        rw [asked_append]
        rcases thread_of_set hu with ⟨rfl, rfl⟩ | ⟨hne, hold⟩
        · -- the call is one more that the thread has behind it
          rw [asked, if_pos ⟨rfl, rfl⟩, asked]
          exact ⟨(h.threads j t ht).1, hk⟩
        · -- the others only see that the world has moved along the relation
          rw [asked, if_neg fun hown => hne hown.1.symm, asked, append_nil]
          exact ⟨(h.threads j u hold).1, (h.threads j u hold).2.later hrel⟩
      · -- an entry of the log is the new one, or it was there before
        change s.log ++ [_] = _ at hlog
        rcases split_concat hlog with ⟨rfl, rfl, -⟩ | ⟨init, -, hold⟩
        · exact ⟨w, hS⟩
        · exact h.log before entry init hold

theorem kept_of_run (hM : Relies M L P S) {w : W} (hw : L.inv w) {moves : List (Move J E D)}
    (hfair : ∀ done m rest mid, moves = done ++ m :: rest →
      M.run done { world := w } = some mid → Fair L P m mid)
    (hrun : M.run moves { world := w } = some s) : Kept M L P S s :=
  run_invariant_of_allowed (kept_step hM) hfair hrun
    ⟨hw, fun i t ht => absurd ht (by simp), fun before e after h => absurd h (by simp)⟩

/-- A move leaves the world as it is, or the world moves by itself, or a thread makes a call that
keeps to the relation. -/
theorem Kept.step_cases (h : Kept M L P S s) (hok : L.ok s.world) {m : Move J E D}
    (hstep : M.step m s = some s') :
    s'.world = s.world ∨ (∃ d, s'.world = M.drift d s.world) ∨
      ∃ i e t own c x, m = .turn i e ∧ s.threads[i]? = some t ∧
        S t.job own c x s.world s'.world := by
  cases m with
  | spawn job =>
    cases some.inj hstep
    exact .inl rfl
  | drift d =>
    cases some.inj hstep
    exact .inr (.inl ⟨d, rfl⟩)
  | turn i e =>
    rcases turn_cases hstep with ⟨t, ht, hrest, rfl⟩ | ⟨t, c, k, x, w, ht, hrest, hx, rfl⟩
    · exact .inl rfl
    · obtain ⟨hS, -, -, -⟩ := h.call hok ht hrest hx
      exact .inr (.inr ⟨i, e, t, _, c, x, rfl, ht, hS⟩)

end Machine
end EffectProgram

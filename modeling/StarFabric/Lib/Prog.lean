import Mathlib.Data.List.Basic

/-!
# Programs that talk to an outside world

A program is a tree of *calls*, and the answer to a call selects the rest of the program (`Prog`).
It can be run to its end (`Prog.run`), or for a bounded number of calls and then dropped
(`Prog.runFor`). `Prog.Triple` is a Hoare triple with a crash condition, and `Prog.Always` says
which calls a program can make and what it can return, whatever the answers are.
-/

namespace EffectProgram

open List Option

structure Interface where
  Call : Type
  Answer : Call → Type

inductive Prog (I : Interface) (α : Type) where
  | done (a : α)
  | call (c : I.Call) (k : I.Answer c → Prog I α)

abbrev Handler (I : Interface) (W : Type) :=
  (c : I.Call) → W → I.Answer c × W

/-- A handler that may refuse a call, for outsides that are only known to answer some calls. -/
abbrev Responder (I : Interface) (W : Type) :=
  (c : I.Call) → W → Option (I.Answer c × W)

namespace Prog

variable {I : Interface} {α β W : Type}

def bind : Prog I α → (α → Prog I β) → Prog I β
  | done a, f => f a
  | call c k, f => call c fun x => (k x).bind f

instance : Monad (Prog I) where
  pure := done
  bind := bind

def ask (c : I.Call) : Prog I (I.Answer c) := call c done

def forEach {ι : Type} (p : ι → Prog I α) : List ι → Prog I (List α)
  | [] => pure []
  | i :: rest => do
    let a ← p i
    let as ← forEach p rest
    return a :: as

def embed {K : Interface} (call : I.Call → K.Call) (answer : ∀ c, K.Answer (call c) → I.Answer c) :
    Prog I α → Prog K α
  | done a => done a
  | .call c k => .call (call c) fun x => (k (answer c x)).embed call answer

/-! ### Running -/

def run (h : Handler I W) : Prog I α → W → α × W
  | done a, w => (a, w)
  | call c k, w => run h (k (h c w).1) (h c w).2

/-- Run a program for at most `n` calls. The result is missing when the program
is dropped before its end. -/
def runFor (h : Handler I W) : ℕ → Prog I α → W → Option α × W
  | _, done a, w => (some a, w)
  -- the process stops before the call is made
  | 0, call _ _, w => (none, w)
  | n + 1, call c k, w => runFor h n (k (h c w).1) (h c w).2

def attempt (h : Handler I W) (stop : Option ℕ) (p : Prog I α) (w : W) : Option α × W :=
  match stop with
  | none => (some (run h p w).1, (run h p w).2)
  | some n => runFor h n p w

variable {h : Handler I W}

@[simp] theorem run_pure (a : α) (w : W) : run h (pure a : Prog I α) w = (a, w) := rfl

@[simp] theorem run_ask (c : I.Call) (w : W) : run h (ask c) w = h c w := rfl

@[simp] theorem run_call (c : I.Call) (k : I.Answer c → Prog I α) (w : W) :
    run h (call c k) w = run h (k (h c w).1) (h c w).2 := rfl

@[simp] theorem run_bind (p : Prog I α) (f : α → Prog I β) (w : W) :
    run h (p >>= f) w = run h (f (run h p w).1) (run h p w).2 := by
  induction p generalizing w with
  | done a => rfl
  | call c k ih => exact ih (h c w).1 (h c w).2

/-! ### Running against a responder -/

def respond (h : Responder I W) : Prog I α → W → Option (α × W)
  | done a, w => some (a, w)
  -- a refused call has no answer to go on with
  | call c k, w => (h c w).bind fun answered => respond h (k answered.1) answered.2

section Respond

variable {h : Responder I W}

@[simp] theorem respond_pure (a : α) (w : W) :
    respond h (pure a : Prog I α) w = some (a, w) := rfl

@[simp] theorem respond_ask (c : I.Call) (w : W) : respond h (ask c) w = h c w := by
  show ((h c w).bind fun answered => some (answered.1, answered.2)) = h c w
  exact bind_fun_some (h c w)

theorem respond_bind (p : Prog I α) (f : α → Prog I β) (w : W) :
    respond h (p >>= f) w = (respond h p w).bind fun ended => respond h (f ended.1) ended.2 := by
  induction p generalizing w with
  | done a => rfl
  | call c k ih =>
    show ((h c w).bind fun answered => respond h (k answered.1 >>= f) answered.2) =
      ((h c w).bind fun answered => respond h (k answered.1) answered.2).bind _
    -- if the first call is refused both sides are refused, otherwise the rest is sequenced
    rw [bind_assoc]
    congr 1
    funext answered
    exact ih answered.1 answered.2

theorem respond_bind_eq_some {p : Prog I α} {f : α → Prog I β} {w : W} {r : β × W} :
    respond h (p >>= f) w = some r ↔
      ∃ a w', respond h p w = some (a, w') ∧ respond h (f a) w' = some r := by
  rw [respond_bind, bind_eq_some_iff]
  constructor
  · rintro ⟨⟨a, w'⟩, hp, hf⟩
    exact ⟨a, w', hp, hf⟩
  · rintro ⟨a, w', hp, hf⟩
    exact ⟨(a, w'), hp, hf⟩

end Respond

/-! ### Crash triples -/

/-- Started in `w`, the program satisfies `J` at the start and after every call,
and ends with a result and a world in `Q`. -/
def Meets (h : Handler I W) (J : W → Prop) (Q : α → W → Prop) : Prog I α → W → Prop
  | done a, w => J w ∧ Q a w
  | call c k, w => J w ∧ Meets h J Q (k (h c w).1) (h c w).2

variable {J : W → Prop} {Q Q' : α → W → Prop} {R : β → W → Prop} {w : W}

variable {p : Prog I α}

theorem Meets.post (hp : Meets h J Q p w) : Q (run h p w).1 (run h p w).2 := by
  induction p generalizing w with
  | done a => exact hp.2
  | call c k ih => exact ih _ hp.2

theorem Meets.crash (hp : Meets h J Q p w) : J (run h p w).2 := by
  induction p generalizing w with
  | done a => exact hp.1
  | call c k ih => exact ih _ hp.2

theorem Meets.dropped (hp : Meets h J Q p w) (n : ℕ) : J (runFor h n p w).2 := by
  induction p generalizing w n with
  | done a => cases n <;> exact hp.1
  | call c k ih =>
    cases n with
    | zero => exact hp.1
    | succ n => exact ih _ hp.2 n

theorem Meets.runFor (hp : Meets h J Q p w) {n : ℕ} {a : α} (ha : (runFor h n p w).1 = some a) :
    Q a (runFor h n p w).2 := by
  induction p generalizing w n with
  | done b =>
    cases n <;> exact Option.some.inj ha ▸ hp.2
  | call c k ih =>
    cases n with
    | zero => cases ha
    | succ n => exact ih _ hp.2 ha

theorem Meets.attempt (hp : Meets h J Q p w) (stop : Option ℕ) :
    J (attempt h stop p w).2 ∧
      ∀ a, (attempt h stop p w).1 = some a → Q a (attempt h stop p w).2 := by
  cases stop with
  | none => exact ⟨hp.crash, fun a ha => Option.some.inj ha ▸ hp.post⟩
  | some n => exact ⟨hp.dropped n, fun a ha => hp.runFor ha⟩

theorem meets_pure {a : α} (hJ : J w) (hQ : Q a w) : Meets h J Q (pure a) w := ⟨hJ, hQ⟩

theorem meets_ask {c : I.Call} {Q : I.Answer c → W → Prop} (hJ : J w) (hJ' : J (h c w).2)
    (hQ : Q (h c w).1 (h c w).2) : Meets h J Q (ask c) w := ⟨hJ, hJ', hQ⟩

theorem Meets.mono (hp : Meets h J Q p w) (hQ : ∀ a w, J w → Q a w → Q' a w) :
    Meets h J Q' p w := by
  induction p generalizing w with
  | done a => exact ⟨hp.1, hQ a w hp.1 hp.2⟩
  | call c k ih => exact ⟨hp.1, ih _ hp.2⟩

theorem Meets.weaken {J' : W → Prop} (hp : Meets h J Q p w) (hJ : ∀ w, J w → J' w) :
    Meets h J' Q p w := by
  induction p generalizing w with
  | done a => exact ⟨hJ w hp.1, hp.2⟩
  | call c k ih => exact ⟨hJ w hp.1, ih _ hp.2⟩

theorem Meets.bind {f : α → Prog I β} (hp : Meets h J Q p w)
    (hf : ∀ a w, J w → Q a w → Meets h J R (f a) w) : Meets h J R (p >>= f) w := by
  induction p generalizing w with
  | done a => exact hf a w hp.1 hp.2
  | call c k ih => exact ⟨hp.1, ih _ hp.2⟩

theorem Meets.embed {K : Interface} {h : Handler K W} {call : I.Call → K.Call}
    {answer : ∀ c, K.Answer (call c) → I.Answer c}
    (hp : Meets (fun c w => (answer c (h (call c) w).1, (h (call c) w).2)) J Q p w) :
    Meets h J Q (p.embed call answer) w := by
  induction p generalizing w with
  | done a => exact hp
  | call c k ih => exact ⟨hp.1, ih _ hp.2⟩

def Triple (h : Handler I W) (J : W → Prop) (P : W → Prop) (p : Prog I α) (Q : α → W → Prop) :
    Prop :=
  ∀ w, P w → Meets h J Q p w

namespace Triple

variable {P P' : W → Prop}

theorem pure {a : α} (hJ : ∀ w, P w → J w) (hQ : ∀ w, P w → Q a w) : Triple h J P (pure a) Q :=
  fun w hw => meets_pure (hJ w hw) (hQ w hw)

variable {p : Prog I α}

theorem conseq (hp : Triple h J P p Q) (hP : ∀ w, P' w → P w) (hQ : ∀ a w, Q a w → Q' a w) :
    Triple h J P' p Q' :=
  fun w hw => (hp w (hP w hw)).mono fun a w _ => hQ a w

theorem bind {f : α → Prog I β} (hp : Triple h J P p Q) (hf : ∀ a, Triple h J (Q a) (f a) R) :
    Triple h J P (p >>= f) R :=
  fun w hw => (hp w hw).bind fun a w _ hQ => hf a w hQ

theorem of_imp {φ : Prop} (hp : φ → Triple h J P p Q) : Triple h J (fun w => P w ∧ φ) p Q :=
  fun w hw => hp hw.2 w hw.1

/-- **The loop rule.** `A` speaks about the elements already consumed and the
world, and `B` is what a round says about its element and its result. -/
theorem forEach {ι : Type} {p : ι → Prog I α} {A : List ι → W → Prop} {B : ι → α → Prop}
    {l : List ι} (hJ : ∀ done w, A done w → J w)
    (hp : ∀ done i rest, l = done ++ i :: rest →
      Triple h J (A done) (p i) fun a w => A (done ++ [i]) w ∧ B i a) :
    Triple h J (A []) (Prog.forEach p l) fun as w => A l w ∧ List.Forall₂ B l as := by
  -- the part still to run is a suffix of the list
  suffices hrest : ∀ rest done, l = done ++ rest →
      Triple h J (A done) (Prog.forEach p rest) fun as w => A l w ∧ List.Forall₂ B rest as from
    hrest l [] rfl
  intro rest
  induction rest with
  | nil =>
    intro done hl
    rw [append_nil] at hl
    exact Triple.pure (hJ done) fun w hw => ⟨hl ▸ hw, .nil⟩
  | cons i rest ih =>
    intro done hl
    -- the round for `i`, and then the rest with `i` consumed
    refine (hp done i rest hl).bind fun a => Triple.of_imp fun ha => ?_
    refine (ih (done ++ [i]) (by rw [hl, append_cons])).bind fun as => ?_
    exact Triple.pure (fun w hw => hJ l w hw.1) fun w hw => ⟨hw.1, .cons ha hw.2⟩

end Triple

/-! ### Whatever the answers are -/

/-- Whatever the answers are, every call of the program is in `C` and every result in `Q`. -/
def Always (C : I.Call → Prop) (Q : α → Prop) : Prog I α → Prop
  | done a => Q a
  | call c k => C c ∧ ∀ x, Always C Q (k x)

section Always

variable {C : I.Call → Prop} {P P' : α → Prop} {S : β → Prop}

theorem always_pure {a : α} (h : P a) : Always C P (pure a : Prog I α) := h

theorem always_ask {c : I.Call} (h : C c) : Always C (fun _ => True) (ask c) :=
  ⟨h, fun _ => trivial⟩

variable {p : Prog I α}

theorem Always.bind {f : α → Prog I β} (hp : Always C P p) (hf : ∀ a, P a → Always C S (f a)) :
    Always C S (p >>= f) := by
  induction p with
  | done a => exact hf a hp
  | call c k ih => exact ⟨hp.1, fun x => ih x (hp.2 x)⟩

theorem Always.forEach {ι : Type} {p : ι → Prog I α} {l : List ι}
    (hp : ∀ i ∈ l, Always C (fun _ => True) (p i)) :
    Always C (fun _ => True) (Prog.forEach p l) := by
  induction l with
  | nil => exact always_pure trivial
  | cons i rest ih =>
    refine (hp i mem_cons_self).bind fun a _ => ?_
    refine (ih fun j hj => hp j (mem_cons_of_mem i hj)).bind fun as _ => ?_
    exact always_pure trivial

theorem Always.post (hp : Always C P p) (w : W) : P (run h p w).1 := by
  induction p generalizing w with
  | done a => exact hp
  | call c k ih => exact ih _ (hp.2 _) _

theorem Always.dropped (hp : Always C P p) (hstep : ∀ c w, C c → J w → J (h c w).2) (n : ℕ)
    (hw : J w) : J (runFor h n p w).2 := by
  induction p generalizing w n with
  | done a => cases n <;> exact hw
  | call c k ih =>
    cases n with
    | zero => exact hw
    | succ n => exact ih _ (hp.2 _) n (hstep c w hp.1 hw)

theorem Always.meets (hp : Always C P p) (hstep : ∀ c w, C c → J w → J (h c w).2) (hw : J w) :
    Meets h J (fun a w' => P a ∧ J w') p w := by
  induction p generalizing w with
  | done a => exact ⟨hw, hp, hw⟩
  | call c k ih => exact ⟨hw, ih _ (hp.2 _) (hstep c w hp.1 hw)⟩

theorem Always.world (hp : Always C P p) (hstep : ∀ c w, C c → J w → J (h c w).2) (hw : J w) :
    J (run h p w).2 := by
  induction p generalizing w with
  | done a => exact hw
  | call c k ih => exact ih _ (hp.2 _) (hstep c w hp.1 hw)

end Always
end Prog
end EffectProgram

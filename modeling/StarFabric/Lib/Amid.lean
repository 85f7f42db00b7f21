import StarFabric.Lib.Prog
import Mathlib.Logic.Relation

/-!
# A program among other steps

`Prog.Amid` runs one program to its end while before each of its calls, and at the end, the world
takes any number of steps of a given relation. Such a run is taken apart along the text of the
program (`amid_bind`, `amid_ask`). What the calls and the other steps preserve holds at the end
(`Amid.always`).
-/

namespace EffectProgram
namespace Prog

open Relation

variable {I : Interface} {E W α β : Type}

/-- From the world `w` the program comes to the result `b` in the world `w'`. -/
def Amid (h : E → Responder I W) (step : W → W → Prop) : Prog I α → W → α → W → Prop
  | done a, w, b, w' => a = b ∧ ReflTransGen step w w'
  -- other steps lead from `w` to `v`, where the call is made
  | call c k, w, b, w' => ∃ v e x v', ReflTransGen step w v ∧ h e c v = some (x, v') ∧
      Amid h step (k x) v' b w'

variable {h : E → Responder I W} {step : W → W → Prop} {w v w' : W} {a : α} {b : β}

variable {p : Prog I α}

theorem Amid.head (hw : ReflTransGen step w v) (hp : p.Amid h step v a w') :
    p.Amid h step w a w' := by
  cases p with
  | done a' => exact ⟨hp.1, hw.trans hp.2⟩
  | call c k =>
    obtain ⟨u, e, x, u', hu, hx, hk⟩ := hp
    exact ⟨u, e, x, u', hw.trans hu, hx, hk⟩

theorem amid_bind {f : α → Prog I β} :
    (p >>= f).Amid h step w b w' ↔ ∃ a v, p.Amid h step w a v ∧ (f a).Amid h step v b w' := by
  induction p generalizing w with
  | done a =>
    constructor
    · intro hf
      exact ⟨a, w, ⟨rfl, .refl⟩, hf⟩
    · -- the steps at the end of the first program count as steps before the second
      rintro ⟨a', v, ⟨rfl, hw⟩, hf⟩
      exact hf.head hw
  | call c k ih =>
    constructor
    · rintro ⟨u, e, x, u', hu, hx, hk⟩
      obtain ⟨a, v, hp, hf⟩ := ih x |>.mp hk
      exact ⟨a, v, ⟨u, e, x, u', hu, hx, hp⟩, hf⟩
    · rintro ⟨a, v, ⟨u, e, x, u', hu, hx, hp⟩, hf⟩
      exact ⟨u, e, x, u', hu, hx, (ih x).mpr ⟨a, v, hp, hf⟩⟩

theorem amid_ask {c : I.Call} {x : I.Answer c} :
    (ask c).Amid h step w x w' ↔
      ∃ v e v', ReflTransGen step w v ∧ h e c v = some (x, v') ∧ ReflTransGen step v' w' := by
  constructor
  · rintro ⟨v, e, y, v', hv, hy, rfl, hv'⟩
    exact ⟨v, e, v', hv, hy, hv'⟩
  · rintro ⟨v, e, v', hv, hx, hv'⟩
    exact ⟨v, e, x, v', hv, hx, rfl, hv'⟩

variable {J : W → Prop}

theorem preserved_of_steps (hstep : ∀ w w', step w w' → J w → J w') (hw : ReflTransGen step w w')
    (hJ : J w) : J w' := by
  induction hw with
  | refl => exact hJ
  | tail _ hlast ih => exact hstep _ _ hlast ih

/-- **The invariant rule.** What the calls in `C` and the other steps preserve holds at the end of a
program that only makes such calls. -/
theorem Amid.always {C : I.Call → Prop} {P : α → Prop} (hp : p.Amid h step w a w')
    (hcalls : p.Always C P) (hcall : ∀ e c w x w', C c → h e c w = some (x, w') → J w → J w')
    (hstep : ∀ w w', step w w' → J w → J w') (hJ : J w) : J w' := by
  -- by the calls of the program: the other steps, one call, and the rest
  induction p generalizing w with
  | done a' => exact preserved_of_steps hstep hp.2 hJ
  | call c k ih =>
    obtain ⟨v, e, x, v', hv, hx, hk⟩ := hp
    have hJv := preserved_of_steps hstep hv hJ
    exact ih x hk (hcalls.2 x) (hcall e c v x v' hcalls.1 hx hJv)

theorem amid_of_respond {e : E} (hp : p.respond (h e) w = some (a, w')) : p.Amid h step w a w' := by
  induction p generalizing w with
  | done a' =>
    cases hp
    exact ⟨rfl, .refl⟩
  | call c k ih =>
    obtain ⟨⟨x, v⟩, hx, hk⟩ := Option.bind_eq_some_iff.mp hp
    exact ⟨w, e, x, v, .refl, hx, ih x hk⟩

end Prog
end EffectProgram

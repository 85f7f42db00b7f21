import Mathlib.Data.List.Induction

/-!
# Inputs that work on separate parts

A system is seen in *parts*, one for each key, and keeps a log of the inputs it has accepted. An
input is *taken* when the part of its key reacts to it and nothing else moves (`Parts.Takes`). Then
two runs that present the inputs of each key in the same order end with the same parts and have
accepted the same inputs (`agree`).
-/

namespace Shards

open List

variable {σ ε α κ V : Type} [DecidableEq κ]

/-- A system in parts: the key of an input, the part of a key, the inputs accepted so far, and
the reaction of a part, with `none` when it refuses. -/
structure Parts (σ α κ V : Type) where
  key : α → κ
  part : σ → κ → V
  log : σ → List α
  react : α → V → Option V

namespace Parts

variable (P : Parts σ α κ V)

def track (s : σ) (k : κ) : V × List α := (P.part s k, (P.log s).filter fun a => P.key a = k)

def take (t : V × List α) (a : α) : V × List α :=
  match P.react a t.1 with
  | none => t
  | some v => (v, t.2 ++ [a])

/-- The step from `s` to `t` lets the part of the key of `a` take `a`, and nothing else. -/
def Takes (a : α) (s t : σ) : Prop :=
  ∀ k, P.track t k = if P.key a = k then P.take (P.track s k) a else P.track s k

variable {P} {a : α} {s t : σ}

theorem takes_of_refused (hreact : P.react a (P.part s (P.key a)) = none)
    (hpart : P.part t = P.part s) (hlog : P.log t = P.log s) : P.Takes a s t := by
  intro k
  have hsame : P.track t k = P.track s k := by
    unfold track
    rw [hpart, hlog]
  rw [hsame]
  split_ifs with hk
  · subst hk
    unfold take track
    rw [hreact]
  · rfl

theorem takes_of_accepted {v : V} (hreact : P.react a (P.part s (P.key a)) = some v)
    (hown : P.part t (P.key a) = v) (hother : ∀ k, k ≠ P.key a → P.part t k = P.part s k)
    (hlog : P.log t = P.log s ++ [a]) : P.Takes a s t := by
  intro k
  split_ifs with hk
  · subst hk
    unfold take track
    rw [hreact, hown, hlog, filter_append, filter_cons_of_pos (by simp), filter_nil]
  · unfold track
    rw [hother k (Ne.symm hk), hlog, filter_append, filter_cons_of_neg (by simpa using hk),
      filter_nil, append_nil]

variable {step : σ → ε → σ}

theorem track_foldl {label : ε → α} {l : List ε}
    (hstep : ∀ done e rest, l = done ++ e :: rest →
      P.Takes (label e) (done.foldl step s) (step (done.foldl step s) e))
    (k : κ) :
    P.track (l.foldl step s) k =
      ((l.map label).filter fun a => P.key a = k).foldl P.take (P.track s k) := by
  -- the inputs consumed so far are a prefix of the run
  suffices hdone : ∀ done rest, l = done ++ rest → P.track (done.foldl step s) k =
      ((done.map label).filter fun a => P.key a = k).foldl P.take (P.track s k) from
    hdone l [] (append_nil l).symm
  intro done
  induction done using reverseRecOn with
  | nil => exact fun _ _ => rfl
  | append_singleton done e ih =>
    intro rest hl
    rw [append_assoc, singleton_append] at hl
    rw [foldl_append, foldl_cons, foldl_nil, hstep done e rest hl k,
      ih (e :: rest) hl, map_append, filter_append, foldl_append, map_cons,
      map_nil]
    split_ifs with hk
    · rw [filter_cons_of_pos (by simpa using hk), filter_nil, foldl_cons, foldl_nil]
    · rw [filter_cons_of_neg (by simpa using hk), filter_nil, foldl_nil]

theorem perm_of_filter_eq [DecidableEq α] (key : α → κ) {l₁ l₂ : List α}
    (h : ∀ k, l₁.filter (fun a => key a = k) = l₂.filter fun a => key a = k) : l₁.Perm l₂ := by
  rw [perm_iff_count]
  intro a
  have hcount : ∀ l : List α, (l.filter fun b => key b = key a).count a = l.count a :=
    fun l => count_filter (by simp)
  rw [← hcount l₁, ← hcount l₂, h (key a)]

/-- **Interleavings agree.** Two runs from one state that present the inputs of each key in the
same order end with the same parts, and their logs agree up to order. -/
theorem agree [DecidableEq α] (label : ε → α) {l₁ l₂ : List ε}
    (hsame : ∀ k, (l₁.map label).filter (fun a => P.key a = k) =
      (l₂.map label).filter fun a => P.key a = k)
    (h₁ : ∀ done e rest, l₁ = done ++ e :: rest →
      P.Takes (label e) (done.foldl step s) (step (done.foldl step s) e))
    (h₂ : ∀ done e rest, l₂ = done ++ e :: rest →
      P.Takes (label e) (done.foldl step s) (step (done.foldl step s) e)) :
    P.part (l₁.foldl step s) = P.part (l₂.foldl step s) ∧
      (P.log (l₁.foldl step s)).Perm (P.log (l₂.foldl step s)) := by
  have htrack : ∀ k, P.track (l₁.foldl step s) k = P.track (l₂.foldl step s) k := by
    intro k
    rw [track_foldl h₁ k, track_foldl h₂ k, hsame k]
  refine ⟨funext fun k => congrArg Prod.fst (htrack k), perm_of_filter_eq P.key ?_⟩
  exact fun k => congrArg Prod.snd (htrack k)

end Parts
end Shards

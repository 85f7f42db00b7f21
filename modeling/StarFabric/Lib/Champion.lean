import Mathlib.Order.Basic
import Mathlib.Data.Nat.Basic

/-!
# The last of the best

Going through a list of candidates, some of them absent, and keeping the one with the highest
score, where a later candidate takes over on a tie (`best`). The outcome is one of the candidates
(`mem_of_best`), and none is above it (`exists_best_ge`). It is the candidate that no earlier one
beats and every later one is below (`best_eq_some`).
-/

namespace Champion

open List

variable {α : Type} {score : α → ℕ}

def challenge (score : α → ℕ) (current candidate : Option α) : Option α :=
  match candidate, current with
  | none, current => current
  | some a, none => some a
  | some a, some b => if score b ≤ score a then some a else some b

def best (score : α → ℕ) (candidates : List (Option α)) : Option α :=
  candidates.foldl (challenge score) none

theorem challenge_eq_or (current candidate : Option α) :
    challenge score current candidate = current ∨ challenge score current candidate = candidate := by
  match candidate, current with
  | none, _ => exact .inl rfl
  | some a, none => exact .inr rfl
  | some a, some b =>
    by_cases h : score b ≤ score a
    · exact .inr (if_pos h)
    · exact .inl (if_neg h)

variable {candidates : List (Option α)} {current : Option α} {a : α}

theorem foldl_challenge_mem (h : candidates.foldl (challenge score) current = some a) :
    current = some a ∨ some a ∈ candidates := by
  induction candidates generalizing current with
  | nil => exact .inl h
  | cons candidate candidates ih =>
    obtain hcurrent | hmem := ih h
    · obtain heq | heq : challenge score current candidate = current ∨
          challenge score current candidate = candidate := challenge_eq_or current candidate
      · exact .inl (heq ▸ hcurrent)
      · exact .inr (mem_cons.mpr (.inl (hcurrent.symm.trans heq)))
    · exact .inr (mem_cons_of_mem _ hmem)

theorem mem_of_best (h : best score candidates = some a) : some a ∈ candidates := by
  obtain h | h := foldl_challenge_mem h
  · cases h
  · exact h

theorem foldl_challenge_ge {b : α} (h : current = some b ∨ some b ∈ candidates) :
    ∃ a, candidates.foldl (challenge score) current = some a ∧ score b ≤ score a := by
  induction candidates generalizing current b with
  | nil =>
    obtain h | h := h
    · exact ⟨b, h, Nat.le_refl _⟩
    · cases h
  | cons candidate candidates ih =>
    -- whoever meets in this round, one that is at least as good goes on
    have hround : (current = some b ∨ candidate = some b) →
        ∃ c, challenge score current candidate = some c ∧ score b ≤ score c := by
      intro h
      match candidate, current with
      | none, current => exact ⟨b, h.resolve_right nofun, Nat.le_refl _⟩
      | some a, none =>
        cases h.resolve_left nofun
        exact ⟨b, rfl, Nat.le_refl _⟩
      | some a, some c =>
        by_cases hle : score c ≤ score a
        · refine ⟨a, if_pos hle, ?_⟩
          obtain h | h := h
          · cases h
            exact hle
          · cases h
            exact Nat.le_refl _
        · refine ⟨c, if_neg hle, ?_⟩
          obtain h | h := h
          · cases h
            exact Nat.le_refl _
          · cases h
            exact Nat.le_of_not_le hle
    have hgoes : ∀ {c : α}, challenge score current candidate = some c → score b ≤ score c →
        ∃ a, candidates.foldl (challenge score) (challenge score current candidate) = some a ∧
          score b ≤ score a := by
      intro c hc hle
      obtain ⟨a, ha, hca⟩ := ih (.inl hc)
      exact ⟨a, ha, hle.trans hca⟩
    obtain h | h := h
    · obtain ⟨c, hc, hle⟩ := hround (.inl h)
      exact hgoes hc hle
    · obtain h | h := mem_cons.mp h
      · obtain ⟨c, hc, hle⟩ := hround (.inr h.symm)
        exact hgoes hc hle
      · exact ih (.inr h)

theorem exists_best_ge {b : α} (h : some b ∈ candidates) :
    ∃ a, best score candidates = some a ∧ score b ≤ score a :=
  foldl_challenge_ge (.inr h)

theorem challenge_eq_some (h : ∀ b, current = some b → score b ≤ score a) :
    challenge score current (some a) = some a := by
  cases current with
  | none => rfl
  | some b => exact if_pos (h b rfl)

theorem foldl_challenge_stays (h : ∀ b, some b ∈ candidates → score b < score a) :
    candidates.foldl (challenge score) (some a) = some a := by
  induction candidates with
  | nil => rfl
  | cons candidate candidates ih =>
    have hstep : challenge score (some a) candidate = some a := by
      cases candidate with
      | none => rfl
      | some b => exact if_neg (not_le.mpr (h b mem_cons_self))
    rw [foldl_cons, hstep]
    exact ih fun b hb => h b (mem_cons_of_mem _ hb)

theorem best_eq_some {before after : List (Option α)}
    (hbefore : ∀ b, some b ∈ before → score b ≤ score a)
    (hafter : ∀ b, some b ∈ after → score b < score a) :
    best score (before ++ some a :: after) = some a := by
  unfold best
  rw [foldl_append, foldl_cons, challenge_eq_some, foldl_challenge_stays hafter]
  intro b hb
  exact hbefore b (mem_of_best hb)

theorem best_eq_none (h : ∀ c ∈ candidates, c = none) : best score candidates = none := by
  cases hbest : best score candidates with
  | none => rfl
  | some a => exact absurd (h _ (mem_of_best hbest)) (Option.some_ne_none a)

end Champion

import Mathlib.Tactic.Ring

/-!
# Numbering the pairs of a finite set

The pairs `i < j` below `n` are numbered row by row: the pairs with the first element `i` follow
those with a smaller one, in the order of the second element. The rows are intervals that follow
each other without a gap (`start_succ`), so that no number is given twice (`number_inj`).
-/

namespace Triangle

/-- The number before the first one of the row `i`. -/
def start (n i : ℕ) : ℕ := i * (2 * n - i - 1) / 2

def number (n i j : ℕ) : ℕ := start n i + j - i

variable {n i j i' j' : ℕ}

theorem start_succ (h : i < n) : start n (i + 1) = start n i + (n - 1 - i) := by
  obtain ⟨m, rfl⟩ := Nat.exists_eq_add_of_lt h
  have hrow : i * (2 * (i + m + 1) - i - 1) = i * (i + 1) + 2 * (i * m) := by
    rw [show 2 * (i + m + 1) - i - 1 = i + 1 + 2 * m by omega]
    ring
  have hnext : (i + 1) * (2 * (i + m + 1) - (i + 1) - 1) = i * (i + 1) + 2 * (i * m + m) := by
    rw [show 2 * (i + m + 1) - (i + 1) - 1 = i + 2 * m by omega]
    ring
  unfold start
  omega

theorem start_mono (h : i ≤ i') (hn : i' ≤ n) : start n i ≤ start n i' := by
  induction i', h using Nat.le_induction with
  | base => exact le_rfl
  | succ k _ ih =>
    rw [start_succ (by omega)]
    exact (ih (by omega)).trans (Nat.le_add_right _ _)

theorem number_bounds (h : i < j) (hj : j < n) :
    start n i < number n i j ∧ number n i j ≤ start n (i + 1) := by
  rw [start_succ (by omega)]
  unfold number
  omega

theorem number_inj (h : i < j) (hj : j < n) (h' : i' < j') (hj' : j' < n)
    (heq : number n i j = number n i' j') : i = i' ∧ j = j' := by
  obtain ⟨hlow, hhigh⟩ := number_bounds h hj
  obtain ⟨hlow', hhigh'⟩ := number_bounds h' hj'
  have hrow : i = i' := by
    rcases lt_trichotomy i i' with hlt | heq | hgt
    · have hmono : start n (i + 1) ≤ start n i' := start_mono hlt (by omega)
      omega
    · exact heq
    · have hmono : start n (i' + 1) ≤ start n i := start_mono hgt (by omega)
      omega
  subst hrow
  unfold number at heq
  exact ⟨rfl, by omega⟩

theorem number_le (h : i < j) (hj : j < n) : number n i j ≤ n * (n - 1) / 2 := by
  have hlast : start n n = n * (n - 1) / 2 := by
    unfold start
    rw [show 2 * n - n - 1 = n - 1 by omega]
  calc number n i j ≤ start n (i + 1) := (number_bounds h hj).2
    _ ≤ start n n := start_mono (by omega) le_rfl
    _ = n * (n - 1) / 2 := hlast

end Triangle

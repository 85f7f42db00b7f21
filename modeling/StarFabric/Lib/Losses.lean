import Mathlib.Data.List.Induction
import Mathlib.Tactic.FieldSimp
import Mathlib.Tactic.Linarith
import Mathlib.Tactic.Ring

/-!
# Losses of stages in a row

Every stage loses a share of what reaches it, in parts of a whole `N`. Two stages together lose `a +
b - a * b / N`, where the product is rounded down (`combine`), so that a stage may count up to one
part too much. The excess does not grow in the following stages, and is at most `k` parts after `k`
of them (`exact_le_combined_le`).
-/

namespace Losses

open List

/-- The loss of two stages, in whole parts of `N`. -/
def combine (N a b : ℤ) : ℤ := a + b - a * b / N

/-- The loss of all stages, as they are combined from the first to the last. -/
def combined (N : ℤ) (losses : List ℤ) : ℤ := losses.foldl (combine N) 0

/-- The loss of all stages, without rounding: what is left is the product of what each stage
leaves. -/
def exact (N : ℤ) (losses : List ℤ) : ℚ :=
  N * (1 - (losses.map fun loss : ℤ => 1 - (loss : ℚ) / N).prod)

def Share (N a : ℤ) : Prop := 0 ≤ a ∧ a ≤ N

section Combine

variable {N a b : ℤ}

theorem le_combine_left (ha : Share N a) (hb : Share N b) : a ≤ combine N a b := by
  have hN : 0 ≤ N := ha.1.trans ha.2
  -- of the second loss at most all is taken off again
  have hquotient : a * b / N ≤ b := by
    obtain hN | hN := hN.eq_or_lt
    · rw [← hN, Int.ediv_zero]
      exact hb.1
    · refine Int.ediv_le_of_le_mul hN ?_
      rw [mul_comm b N]
      exact mul_le_mul_of_nonneg_right ha.2 hb.1
  unfold combine
  linarith

theorem combine_comm : combine N a b = combine N b a := by
  unfold combine
  rw [add_comm a b, mul_comm a b]

theorem le_combine_right (ha : Share N a) (hb : Share N b) : b ≤ combine N a b := by
  rw [combine_comm]
  exact le_combine_left hb ha

theorem combine_le (hN : 0 < N) (ha : Share N a) (hb : Share N b) : combine N a b ≤ N := by
  -- what is left of the whole is not negative, and it is a whole number of parts
  have hleft : 0 ≤ (N - a) * (N - b) := mul_nonneg (sub_nonneg.mpr ha.2) (sub_nonneg.mpr hb.2)
  have hquotient : a + b - N ≤ a * b / N := by
    rw [Int.le_ediv_iff_mul_le hN]
    linarith
  unfold combine
  linarith

theorem Share.combine (hN : 0 < N) (ha : Share N a) (hb : Share N b) : Share N (combine N a b) :=
  ⟨ha.1.trans (le_combine_left ha hb), combine_le hN ha hb⟩

theorem combine_bounds (hN : 0 < N) :
    (a + b - a * b / N : ℚ) ≤ combine N a b ∧ combine N a b ≤ (a + b - a * b / N + 1 : ℚ) := by
  have hN' : (0 : ℚ) < N := by exact_mod_cast hN
  have hfloor : ((a * b / N : ℤ) : ℚ) ≤ a * b / N := by
    rw [le_div_iff₀ hN']
    exact_mod_cast Int.ediv_mul_le (a * b) hN.ne'
  have hceil : (a * b / N : ℚ) ≤ ((a * b / N : ℤ) : ℚ) + 1 := by
    rw [div_le_iff₀ hN']
    exact_mod_cast (Int.lt_ediv_add_one_mul_self (a * b) hN).le
  unfold combine
  push_cast
  constructor
  · linarith
  · linarith

end Combine

section Combined

variable {N : ℤ} {losses : List ℤ}

@[simp] theorem combined_append_singleton (losses : List ℤ) (loss : ℤ) :
    combined N (losses ++ [loss]) = combine N (combined N losses) loss := by
  unfold combined
  rw [foldl_append]
  rfl

theorem exact_append_singleton (hN : 0 < N) (losses : List ℤ) (loss : ℤ) :
    exact N (losses ++ [loss]) = exact N losses + loss - exact N losses * loss / N := by
  unfold exact
  rw [map_append, prod_append]
  simp only [map_cons, map_nil, prod_singleton]
  field_simp
  ring

variable (hN : 0 < N) (h : ∀ loss ∈ losses, Share N loss)
include hN h

theorem share_combined : Share N (combined N losses) := by
  induction losses using reverseRecOn with
  | nil => exact ⟨le_rfl, hN.le⟩
  | append_singleton losses loss ih =>
    rw [combined_append_singleton]
    obtain ⟨hlosses, hloss⟩ := forall_mem_append.mp h
    exact (ih hlosses).combine hN (hloss loss (mem_singleton_self loss))

theorem le_combined {loss : ℤ} (hmem : loss ∈ losses) : loss ≤ combined N losses := by
  induction losses using reverseRecOn with
  | nil => cases hmem
  | append_singleton losses last ih =>
    obtain ⟨hlosses, hlast⟩ := forall_mem_append.mp h
    have hshare : Share N (combined N losses) := share_combined hN hlosses
    have hlast : Share N last := hlast last (mem_singleton_self last)
    rw [combined_append_singleton]
    obtain hmem | hmem := mem_append.mp hmem
    · exact (ih hlosses hmem).trans (le_combine_left hshare hlast)
    · rw [mem_singleton.mp hmem]
      exact le_combine_right hshare hlast

theorem combined_le_sum : combined N losses ≤ losses.sum := by
  induction losses using reverseRecOn with
  | nil => exact le_rfl
  | append_singleton losses loss ih =>
    obtain ⟨hlosses, hloss⟩ := forall_mem_append.mp h
    have hquotient : 0 ≤ combined N losses * loss / N :=
      Int.ediv_nonneg (mul_nonneg (share_combined hN hlosses).1
        (hloss loss (mem_singleton_self loss)).1) hN.le
    rw [combined_append_singleton, sum_append, sum_singleton]
    calc combine N (combined N losses) loss ≤ combined N losses + loss := by
          unfold combine
          linarith
      _ ≤ losses.sum + loss := by linarith [ih hlosses]

theorem exact_le_combined_le :
    exact N losses ≤ combined N losses ∧
      (combined N losses : ℚ) ≤ exact N losses + losses.length := by
  induction losses using reverseRecOn with
  | nil => simp [exact, combined]
  | append_singleton losses loss ih =>
    obtain ⟨hlosses, hloss⟩ := forall_mem_append.mp h
    obtain ⟨hnonneg, hle⟩ := hloss loss (mem_singleton_self loss)
    obtain ⟨hlower, hupper⟩ := ih hlosses
    obtain ⟨hfloor, hceil⟩ := combine_bounds (a := combined N losses) (b := loss) hN
    rw [combined_append_singleton, exact_append_singleton hN, length_append, length_singleton]
    set c : ℚ := (combined N losses : ℚ)
    set e : ℚ := exact N losses
    -- the share of the excess that gets through the last stage
    have hN' : (0 : ℚ) < N := by exact_mod_cast hN
    have hpass : 0 ≤ 1 - (loss : ℚ) / N ∧ 1 - (loss : ℚ) / N ≤ 1 := by
      have hle' : (loss : ℚ) / N ≤ 1 := by
        rw [div_le_one₀ hN']
        exact_mod_cast hle
      have hnonneg' : 0 ≤ (loss : ℚ) / N := by
        refine div_nonneg ?_ hN'.le
        exact_mod_cast hnonneg
      exact ⟨by linarith, by linarith⟩
    have hlow : 0 ≤ (c - e) * (1 - (loss : ℚ) / N) := mul_nonneg (by linarith) hpass.1
    have hhigh : (c - e) * (1 - (loss : ℚ) / N) ≤ c - e :=
      mul_le_of_le_one_right (by linarith) hpass.2
    have hc : c * loss / N = c * ((loss : ℚ) / N) := mul_div_assoc c _ _
    have he : e * loss / N = e * ((loss : ℚ) / N) := mul_div_assoc e _ _
    rw [hc] at hfloor hceil
    rw [he]
    push_cast
    constructor
    · calc e + loss - e * ((loss : ℚ) / N)
          ≤ c + loss - c * ((loss : ℚ) / N) := by linarith
        _ ≤ combine N (combined N losses) loss := hfloor
    · calc (combine N (combined N losses) loss : ℚ)
          ≤ c + loss - c * ((loss : ℚ) / N) + 1 := hceil
        _ ≤ e + loss - e * ((loss : ℚ) / N) + (losses.length + 1) := by linarith

end Combined

end Losses

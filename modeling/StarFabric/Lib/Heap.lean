import Mathlib.Order.WithBot
import Mathlib.Data.List.Perm.Basic

/-!
# Binary heaps in an array

The heap of Go's `container/heap`, ordered by a key. `rank` reads the key at an index, with `⊤`
outside the array, so that a heap is an array in which every index ranks at least as high as its
parent, and no statement needs a bound. The results are `push_spec` and `pop_spec`.
-/

namespace BinaryHeap

open List Nat

variable {α D : Type} {a : Array α} {i j : ℕ}

/-! ### Ranks -/

/-- The key at an index, `⊤` outside the array. -/
def rank (key : α → D) (a : Array α) (i : ℕ) : WithTop D :=
  match a[i]? with
  | some x => key x
  | none => ⊤

theorem getElem?_swapIfInBounds (hi : i < a.size) (hj : j < a.size) (k : ℕ) :
    (a.swapIfInBounds i j)[k]? = if k = i then a[j]? else if k = j then a[i]? else a[k]? := by
  rw [Array.swapIfInBounds_def, dif_pos hi, dif_pos hj, Array.getElem?_swap,
    Array.getElem?_eq_getElem hi, Array.getElem?_eq_getElem hj]
  by_cases hki : k = i
  · subst hki
    by_cases hjk : j = k
    · subst hjk; simp only [if_true]
    · rw [if_neg hjk, if_pos rfl, if_pos rfl]
  · rw [if_neg hki, if_neg (Ne.symm hki)]
    by_cases hkj : k = j
    · rw [if_pos hkj, if_pos hkj.symm]
    · rw [if_neg hkj, if_neg (Ne.symm hkj)]

theorem rank_swap {key : α → D} (hi : i < a.size) (hj : j < a.size) (k : ℕ) :
    rank key (a.swapIfInBounds i j) k =
      if k = i then rank key a j else if k = j then rank key a i else rank key a k := by
  unfold rank
  rw [getElem?_swapIfInBounds hi hj]
  split_ifs <;> rfl

theorem swap_perm : (a.swapIfInBounds i j).toList.Perm a.toList := by
  rw [Array.swapIfInBounds_def]
  split_ifs with hi hj
  · exact (Array.swap_perm hi hj).toList
  · exact List.Perm.refl _
  · exact List.Perm.refl _

variable [LinearOrder D] (key : α → D)

/-! ### Operations -/

def less (a : Array α) (i j : ℕ) : Bool :=
  match a[i]?, a[j]? with
  | some x, some y => key x < key y
  | _, _ => false

def up : ℕ → Array α → ℕ → Array α
  | 0, a, _ => a
  | fuel + 1, a, j =>
    if less key a j ((j - 1) / 2) then
      up fuel (a.swapIfInBounds ((j - 1) / 2) j) ((j - 1) / 2)
    else a

def child (a : Array α) (i : ℕ) : ℕ :=
  if less key a (2 * i + 2) (2 * i + 1) then 2 * i + 2 else 2 * i + 1

def down : ℕ → Array α → ℕ → Array α
  | 0, a, _ => a
  | fuel + 1, a, i =>
    if less key a (child key a i) i then
      down fuel (a.swapIfInBounds i (child key a i)) (child key a i)
    else a

def push (a : Array α) (x : α) : Array α := up key a.size (a.push x) a.size

/-- `heap.Pop`. The sift does not look at the index of the removed element, which is
therefore dropped first. -/
def pop (a : Array α) : Option (α × Array α) :=
  match a[0]? with
  | none => none
  | some x =>
    let rest := (a.swapIfInBounds 0 (a.size - 1)).pop
    some (x, down key rest.size rest 0)

variable {key}

theorem rank_lt_top_iff : rank key a i < ⊤ ↔ i < a.size := by
  unfold rank
  by_cases hi : i < a.size
  · rw [Array.getElem?_eq_getElem hi]
    exact ⟨fun _ => hi, fun _ => WithTop.coe_lt_top _⟩
  · rw [Array.getElem?_eq_none (not_lt.mp hi)]
    exact ⟨fun h => absurd h (lt_irrefl _), fun h => absurd h hi⟩

theorem less_iff (hj : j < a.size) : less key a i j = true ↔ rank key a i < rank key a j := by
  unfold less rank
  rw [Array.getElem?_eq_getElem hj]
  cases a[i]? with
  | none => simp
  | some x => simp

theorem lt_size_of_less (h : less key a i j = true) : i < a.size ∧ j < a.size := by
  unfold less at h
  split at h
  · next x y hx hy =>
    obtain ⟨hi, -⟩ := Array.getElem?_eq_some_iff.mp hx
    obtain ⟨hj, -⟩ := Array.getElem?_eq_some_iff.mp hy
    exact ⟨hi, hj⟩
  · cases h

def Ordered (key : α → D) (a : Array α) : Prop :=
  ∀ i, 0 < i → rank key a ((i - 1) / 2) ≤ rank key a i

theorem Ordered.root_le (h : Ordered key a) (i : ℕ) : rank key a 0 ≤ rank key a i := by
  induction i using Nat.strong_induction_on with
  | _ i ih =>
    rcases Nat.eq_zero_or_pos i with rfl | hi
    · exact le_rfl
    · exact (ih ((i - 1) / 2) (by omega)).trans (h i hi)

/-! ### Sifting up -/

/-- The order before a step of `up` at `j`: only the pair of `j` and its parent may be
out of order, and the parent ranks below the children of `j`. -/
structure UpOrder (key : α → D) (a : Array α) (j : ℕ) : Prop where
  off : ∀ i, 0 < i → i ≠ j → rank key a ((i - 1) / 2) ≤ rank key a i
  grand : 0 < j → ∀ c, 0 < c → (c - 1) / 2 = j → rank key a ((j - 1) / 2) ≤ rank key a c

theorem UpOrder.step (h : UpOrder key a j) (hless : less key a j ((j - 1) / 2) = true) :
    UpOrder key (a.swapIfInBounds ((j - 1) / 2) j) ((j - 1) / 2) := by
  obtain ⟨hj, hp⟩ := lt_size_of_less hless
  have hlt := (less_iff hp).mp hless
  have hpos : 0 < j := by
    rcases Nat.eq_zero_or_pos j with rfl | hpos
    · exact absurd hlt (lt_irrefl _)
    · exact hpos
  have hpj : (j - 1) / 2 ≠ j := by omega
  -- the parent of the parent, and the other children of the parent
  have hup : 0 < (j - 1) / 2 → rank key a (((j - 1) / 2 - 1) / 2) ≤ rank key a ((j - 1) / 2) :=
    fun hpos => h.off _ hpos hpj
  refine ⟨fun i hi hne => ?_, fun hpos' c hc hcp => ?_⟩
  · rw [rank_swap hp hj, rank_swap hp hj, if_neg hne]
    by_cases hij : i = j
    · subst hij
      rw [if_pos rfl, if_pos rfl]
      exact hlt.le
    · rw [if_neg hij]
      by_cases hc : (i - 1) / 2 = (j - 1) / 2
      · rw [if_pos hc]
        exact hlt.le.trans (hc ▸ h.off i hi hij)
      · rw [if_neg hc]
        by_cases hc' : (i - 1) / 2 = j
        · rw [if_pos hc']
          exact h.grand hpos i hi hc'
        · rw [if_neg hc']
          exact h.off i hi hij
  · rw [rank_swap hp hj, rank_swap hp hj, if_neg (by omega), if_neg (by omega), if_neg (by omega)]
    by_cases hcj : c = j
    · rw [if_pos hcj]
      exact hup hpos'
    · rw [if_neg hcj]
      exact (hup hpos').trans (hcp ▸ h.off c hc hcj)

theorem UpOrder.ordered (h : UpOrder key a j) (hj : j < a.size)
    (hless : less key a j ((j - 1) / 2) = false) : Ordered key a := by
  intro i hi
  by_cases hij : i = j
  · subst hij
    by_contra hnot
    rw [not_le] at hnot
    rw [(less_iff (by omega)).mpr hnot] at hless
    cases hless
  · exact h.off i hi hij

theorem up_spec {fuel : ℕ} (h : UpOrder key a j) (hj : j < a.size) (hfuel : j ≤ fuel) :
    Ordered key (up key fuel a j) ∧ (up key fuel a j).toList.Perm a.toList := by
  induction fuel generalizing a j with
  | zero =>
    exact ⟨fun i hi => h.off i hi (by omega), List.Perm.refl _⟩
  | succ fuel ih =>
    rw [up]
    cases hless : less key a j ((j - 1) / 2) with
    | false => exact ⟨h.ordered hj hless, List.Perm.refl _⟩
    | true =>
      have hlt := (less_iff (lt_size_of_less hless).2).mp hless
      have hpos : 0 < j := by
        rcases Nat.eq_zero_or_pos j with rfl | hpos
        · exact absurd hlt (lt_irrefl _)
        · exact hpos
      obtain ⟨hord, hperm⟩ := ih (h.step hless)
        (by rw [Array.size_swapIfInBounds]; omega) (by omega)
      exact ⟨hord, hperm.trans swap_perm⟩

theorem push_spec (h : Ordered key a) (x : α) :
    Ordered key (push key a x) ∧ (push key a x).toList.Perm (x :: a.toList) := by
  have hold : ∀ i, i < a.size → rank key (a.push x) i = rank key a i := by
    intro i hi
    unfold rank
    rw [Array.getElem?_push_lt hi, Array.getElem?_eq_getElem hi]
  have hup : UpOrder key (a.push x) a.size := by
    refine ⟨fun i hi hne => ?_, fun _ c hc hcp => ?_⟩
    · by_cases hlt : i < a.size
      · rw [hold i hlt, hold _ (by omega)]
        exact h i hi
      · -- past the new element there is nothing
        have htop : rank key (a.push x) i = ⊤ := by
          rw [← not_lt_top_iff, rank_lt_top_iff, Array.size_push]
          omega
        rw [htop]
        exact le_top
    · have htop : rank key (a.push x) c = ⊤ := by
        rw [← not_lt_top_iff, rank_lt_top_iff, Array.size_push]
        omega
      rw [htop]
      exact le_top
  obtain ⟨hord, hperm⟩ := up_spec hup (by simp) le_rfl
  refine ⟨hord, hperm.trans ?_⟩
  rw [Array.toList_push]
  exact perm_append_singleton x a.toList

/-! ### Sifting down -/

/-- The order before a step of `down` at `i`: only `i` and its children may be out of
order, and the parent of `i` ranks below the children of `i`. -/
structure DownOrder (key : α → D) (a : Array α) (i : ℕ) : Prop where
  off : ∀ c, 0 < c → (c - 1) / 2 ≠ i → rank key a ((c - 1) / 2) ≤ rank key a c
  grand : 0 < i → ∀ c, 0 < c → (c - 1) / 2 = i → rank key a ((i - 1) / 2) ≤ rank key a c

theorem child_eq (key : α → D) (a : Array α) (i : ℕ) :
    child key a i = 2 * i + 1 ∨ child key a i = 2 * i + 2 := by
  unfold child
  split_ifs
  · exact .inr rfl
  · exact .inl rfl

theorem rank_child_le {c : ℕ} (hc : 0 < c) (hci : (c - 1) / 2 = i) :
    rank key a (child key a i) ≤ rank key a c := by
  have hcases : c = 2 * i + 1 ∨ c = 2 * i + 2 := by omega
  unfold child
  cases hless : less key a (2 * i + 2) (2 * i + 1) with
  | true =>
    have hlt := (less_iff (lt_size_of_less hless).2).mp hless
    rcases hcases with rfl | rfl
    · exact hlt.le
    · exact le_rfl
  | false =>
    rcases hcases with rfl | rfl
    · exact le_rfl
    · by_cases hsize : 2 * i + 1 < a.size
      · by_contra hnot
        rw [not_le] at hnot
        rw [(less_iff hsize).mpr hnot] at hless
        cases hless
      · have htop : rank key a (2 * i + 2) = ⊤ := by
          rw [← not_lt_top_iff, rank_lt_top_iff]
          omega
        rw [htop]
        exact le_top

theorem DownOrder.step (h : DownOrder key a i) (hless : less key a (child key a i) i = true) :
    DownOrder key (a.swapIfInBounds i (child key a i)) (child key a i) := by
  obtain ⟨hc, hi⟩ := lt_size_of_less hless
  have hlt := (less_iff hi).mp hless
  have hchild := child_eq key a i
  have hmin : ∀ c, 0 < c → (c - 1) / 2 = i → rank key a (child key a i) ≤ rank key a c :=
    fun c hc hci => rank_child_le hc hci
  generalize child key a i = m at *
  have hmi : (m - 1) / 2 = i := by omega
  refine ⟨fun c hc' hne => ?_, fun hpos c hc' hcm => ?_⟩
  · rw [rank_swap hi hc, rank_swap hi hc]
    by_cases hci : c = i
    · -- the parent of `i` against what moved to `i`
      subst hci
      rw [if_neg (by omega), if_neg (by omega), if_pos rfl]
      exact h.grand hc' m (by omega) hmi
    · rw [if_neg hci]
      by_cases hpi : (c - 1) / 2 = i
      · rw [if_pos hpi]
        split_ifs
        · exact hlt.le
        · exact hmin c hc' hpi
      · rw [if_neg hpi, if_neg hne, if_neg (by omega)]
        exact h.off c hc' hpi
  · rw [rank_swap hi hc, rank_swap hi hc, hmi, if_pos rfl, if_neg (by omega), if_neg (by omega)]
    exact hcm ▸ h.off c hc' (by omega)

theorem DownOrder.ordered (h : DownOrder key a i)
    (hless : less key a (child key a i) i = false) : Ordered key a := by
  intro c hc
  by_cases hci : (c - 1) / 2 = i
  · rw [hci]
    refine le_trans ?_ (rank_child_le hc hci)
    by_cases hi : i < a.size
    · by_contra hnot
      rw [not_le] at hnot
      rw [(less_iff hi).mpr hnot] at hless
      cases hless
    · have htop : rank key a (child key a i) = ⊤ := by
        rw [← not_lt_top_iff, rank_lt_top_iff]
        have := child_eq key a i
        omega
      rw [htop]
      exact le_top
  · exact h.off c hc hci

theorem down_spec (fuel : ℕ) (h : DownOrder key a i) (hfuel : a.size ≤ i + fuel) :
    Ordered key (down key fuel a i) ∧ (down key fuel a i).toList.Perm a.toList := by
  induction fuel generalizing a i with
  | zero =>
    refine ⟨h.ordered ?_, List.Perm.refl _⟩
    by_contra hless
    rw [Bool.not_eq_false] at hless
    have := (lt_size_of_less hless).2
    omega
  | succ fuel ih =>
    rw [down]
    cases hless : less key a (child key a i) i with
    | false => exact ⟨h.ordered hless, List.Perm.refl _⟩
    | true =>
      have hchild := child_eq key a i
      obtain ⟨hord, hperm⟩ := ih (h.step hless) (by rw [Array.size_swapIfInBounds]; omega)
      exact ⟨hord, hperm.trans swap_perm⟩

/-- What is left once the root has changed places with the last element and that is
dropped: the elements but the root, in order up to the new root. -/
theorem swap_pop_spec (h : Ordered key a) {x : α} (hx : a[0]? = some x) :
    DownOrder key (a.swapIfInBounds 0 (a.size - 1)).pop 0 ∧
      a.toList.Perm (x :: (a.swapIfInBounds 0 (a.size - 1)).pop.toList) := by
  obtain ⟨h0, -⟩ := Array.getElem?_eq_some_iff.mp hx
  have hsize : (a.swapIfInBounds 0 (a.size - 1)).size = a.size := Array.size_swapIfInBounds
  refine ⟨⟨fun c hc hne => ?_, fun hpos => absurd hpos (lt_irrefl 0)⟩, ?_⟩
  · by_cases hlt : c < a.size - 1
    · have hkeep : ∀ k, 0 < k → k < a.size - 1 →
          rank key (a.swapIfInBounds 0 (a.size - 1)).pop k = rank key a k := by
        intro k hk hklt
        unfold rank
        rw [Array.getElem?_pop, hsize, if_pos hklt,
          getElem?_swapIfInBounds h0 (by omega), if_neg (by omega), if_neg (by omega)]
      rw [hkeep c hc hlt, hkeep _ (by omega) (by omega)]
      exact h c hc
    · have htop : rank key (a.swapIfInBounds 0 (a.size - 1)).pop c = ⊤ := by
        rw [← not_lt_top_iff, rank_lt_top_iff, Array.size_pop, hsize]
        exact hlt
      rw [htop]
      exact le_top
  · have hlast : x ∈ (a.swapIfInBounds 0 (a.size - 1)).toList.getLast? := by
      rw [getLast?_eq_getElem?, Array.length_toList, Array.getElem?_toList, hsize,
        getElem?_swapIfInBounds h0 (by omega)]
      split_ifs with hone hlast
      · rw [hone]; exact hx
      · exact hx
      · exact absurd rfl hlast
    have hsplit := dropLast_append_getLast? x hlast
    refine (swap_perm (i := 0) (j := a.size - 1)).symm.trans ?_
    exact (List.Perm.of_eq hsplit.symm).trans (perm_append_singleton x _)

theorem pop_spec (h : Ordered key a) {x : α} {rest : Array α} (hpop : pop key a = some (x, rest)) :
    Ordered key rest ∧ a.toList.Perm (x :: rest.toList) ∧ ∀ y ∈ a, key x ≤ key y := by
  unfold pop at hpop
  split at hpop
  · cases hpop
  next x' hx =>
  obtain ⟨rfl, rfl⟩ := Prod.mk.inj (Option.some.inj hpop)
  obtain ⟨hdown, hperm⟩ := swap_pop_spec h hx
  obtain ⟨hord, hperm'⟩ := down_spec (a.swapIfInBounds 0 (a.size - 1)).pop.size hdown (by omega)
  refine ⟨hord, hperm.trans (hperm'.symm.cons x'), fun y hy => ?_⟩
  obtain ⟨i, hi, rfl⟩ := Array.getElem_of_mem hy
  have hle := h.root_le i
  unfold rank at hle
  rw [hx, Array.getElem?_eq_getElem hi] at hle
  exact WithTop.coe_le_coe.mp hle

theorem pop_eq_none_iff : pop key a = none ↔ a = #[] := by
  unfold pop
  split
  · next h => simpa using h
  · next x h =>
    refine ⟨nofun, fun h' => ?_⟩
    rw [h'] at h
    cases h

end BinaryHeap

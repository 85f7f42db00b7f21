import Mathlib.Data.List.Sort
import Mathlib.Data.Prod.Lex

/-!
# `sort.Slice`

`sort.Slice` is not guaranteed to be stable. A `SortSlice` is any function that does what is
documented; where all elements are told apart, there is only one result (`SortSlice.eq_of_perm`).
`LessBy` says that a less-than function compares by a key in a linear order. `sort.SliceStable` is
insertion sort.
-/

namespace Go

open List

/-- A function that sorts as `sort.Slice` does. -/
structure SortSlice {α : Type} (less : α → α → Bool) where
  sort : List α → List α
  perm : ∀ l, (sort l).Perm l
  sorted : ∀ l, (sort l).Pairwise fun a b => less b a = false

namespace SortSlice

variable {α : Type} {less : α → α → Bool} {l l' : List α}

def Distinguishes (less : α → α → Bool) (l : List α) : Prop :=
  ∀ a ∈ l, ∀ b ∈ l, a ≠ b → less a b = true ∨ less b a = true

theorem eq_of_sorted (s : SortSlice less) (hless : Distinguishes less l) (h : l'.Perm l)
    (hsorted : l'.Pairwise fun a b => less b a = false) : s.sort l = l' := by
  refine ((s.perm l).trans h.symm).eq_of_pairwise ?_ (s.sorted l) hsorted
  intro a b ha hb hab hba
  by_contra hne
  rcases hless a ((s.perm l).mem_iff.mp ha) b (h.mem_iff.mp hb) hne with hlt | hlt
  · cases hlt.symm.trans hba
  · cases hlt.symm.trans hab

theorem eq_of_perm (s : SortSlice less) (hless : Distinguishes less l) (h : l'.Perm l) :
    s.sort l' = s.sort l :=
  (s.eq_of_sorted hless ((s.perm l').trans h) (s.sorted l')).symm

end SortSlice

def LessBy {α β : Type} [LinearOrder β] (less : α → α → Bool) (f : α → β) : Prop :=
  ∀ a b, less a b = true ↔ f a < f b

namespace LessBy

variable {α β : Type} [LinearOrder β] {less : α → α → Bool} {f : α → β}

theorem eq_false_iff (h : LessBy less f) (a b : α) : less b a = false ↔ f a ≤ f b := by
  rw [← Bool.not_eq_true, h b a, not_lt]

theorem pairwise_insertionSort (h : LessBy less f) (l : List α) :
    (l.insertionSort fun a b => less b a = false).Pairwise fun a b => less b a = false := by
  have : Std.Total fun a b => less b a = false := by
    constructor
    intro a b
    rw [h.eq_false_iff, h.eq_false_iff]
    exact le_total (f a) (f b)
  have : IsTrans α fun a b => less b a = false := by
    constructor
    intro a b c hab hbc
    rw [h.eq_false_iff] at hab hbc ⊢
    exact hab.trans hbc
  exact List.pairwise_insertionSort _ l

theorem distinguishes (h : LessBy less f) {l : List α} (hf : ∀ a ∈ l, ∀ b ∈ l, f a = f b → a = b) :
    SortSlice.Distinguishes less l := by
  intro a ha b hb hne
  rw [h a b, h b a]
  exact lt_or_gt_of_ne fun heq => hne (hf a ha b hb heq)

/-- The sort that first puts the elements into another order and then sorts them stably. -/
def rearranged (h : LessBy less f) (rearrange : List α → List α)
    (hperm : ∀ l, (rearrange l).Perm l) : SortSlice less where
  sort l := (rearrange l).insertionSort fun a b => less b a = false
  perm l := (perm_insertionSort _ _).trans (hperm l)
  sorted l := h.pairwise_insertionSort (rearrange l)

end LessBy

section Stable

variable {α : Type} {r : α → α → Prop} [DecidableRel r]

theorem orderedInsert_append_left {a : α} (xs : List α) {ys : List α} (h : ∀ b ∈ ys, r a b) :
    (xs ++ ys).orderedInsert r a = xs.orderedInsert r a ++ ys := by
  induction xs with
  | nil =>
    cases ys with
    | nil => rfl
    | cons b ys => exact orderedInsert_cons_of_le r ys (h b mem_cons_self)
  | cons x xs ih =>
    rw [cons_append]
    by_cases hax : r a x
    · rw [orderedInsert_cons_of_le r _ hax, orderedInsert_cons_of_le r _ hax]
      rfl
    · rw [orderedInsert_of_not_le r _ hax, orderedInsert_of_not_le r _ hax, ih]
      rfl

theorem orderedInsert_append_right {a : α} {xs : List α} (ys : List α) (h : ∀ b ∈ xs, ¬ r a b) :
    (xs ++ ys).orderedInsert r a = xs ++ ys.orderedInsert r a := by
  induction xs with
  | nil => rfl
  | cons x xs ih =>
    obtain ⟨hx, hxs⟩ := forall_mem_cons.mp h
    rw [cons_append, orderedInsert_of_not_le r _ hx, ih hxs]
    rfl

/-- **Two groups are sorted apart**, when every element of the first comes strictly before every
element of the second. -/
theorem insertionSort_eq_append (first : α → Bool) {l : List α}
    (h : ∀ a ∈ l, first a = true → ∀ b ∈ l, first b = false → r a b ∧ ¬ r b a) :
    l.insertionSort r =
      (l.filter first).insertionSort r ++ (l.filter fun a => !first a).insertionSort r := by
  induction l with
  | nil => rfl
  | cons x l ih =>
    have hl := ih fun a ha hfa b hb hfb =>
      h a (mem_cons_of_mem x ha) hfa b (mem_cons_of_mem x hb) hfb
    rw [insertionSort_cons, hl]
    cases hx : first x with
    | true =>
      rw [filter_cons_of_pos hx, insertionSort_cons, filter_cons_of_neg (by simp [hx])]
      refine orderedInsert_append_left _ fun b hb => ?_
      obtain ⟨hb, hfb⟩ := mem_filter.mp (mem_insertionSort r |>.mp hb)
      exact (h x mem_cons_self hx b (mem_cons_of_mem x hb) (by simpa using hfb)).1
    | false =>
      rw [filter_cons_of_neg (by simp [hx]), filter_cons_of_pos (by simp [hx]), insertionSort_cons]
      refine orderedInsert_append_right _ fun b hb => ?_
      obtain ⟨hb, hfb⟩ := mem_filter.mp (mem_insertionSort r |>.mp hb)
      exact (h b (mem_cons_of_mem x hb) hfb x mem_cons_self hx).2

end Stable
end Go

import Mathlib.Computability.RegularExpressions

/-!
# Patterns

The pieces that patterns of text are usually put together from, as regular expressions over any
alphabet: a fixed word, one character of a class, one or more of something, and something or
nothing. For each of them, which words match. Whatever matches consists of symbols that occur in
the pattern (`mem_symbols`).
-/

namespace Patterns

open RegularExpression List

variable {α : Type}

theorem flatten_singletons (x : List α) : (x.map fun a => [a]).flatten = x := by
  induction x with
  | nil => rfl
  | cons a x ih => exact congrArg (a :: ·) ih

variable [DecidableEq α]

def word : List α → RegularExpression α
  | [] => 1
  | a :: w => char a * word w

def oneOf : List α → RegularExpression α
  | [] => 0
  | a :: as => char a + oneOf as

def many1 (P : RegularExpression α) : RegularExpression α := P * P.star

def optional (P : RegularExpression α) : RegularExpression α := 1 + P

section Matching

variable {P : RegularExpression α} {x : List α}

theorem rmatch_word (w : List α) : (word w).rmatch x = true ↔ x = w := by
  induction w generalizing x with
  | nil => exact one_rmatch_iff x
  | cons a w ih =>
    unfold word
    rw [mul_rmatch_iff]
    constructor
    · rintro ⟨t, u, rfl, ht, hu⟩
      rw [(char_rmatch_iff a t).mp ht, ih.mp hu]
      rfl
    · rintro rfl
      exact ⟨[a], w, rfl, (char_rmatch_iff a [a]).mpr rfl, ih.mpr rfl⟩

theorem rmatch_oneOf (as : List α) : (oneOf as).rmatch x = true ↔ ∃ a ∈ as, x = [a] := by
  induction as with
  | nil =>
    unfold oneOf
    rw [zero_rmatch]
    exact iff_of_false Bool.false_ne_true fun ⟨_, ha, _⟩ => absurd ha not_mem_nil
  | cons a as ih =>
    unfold oneOf
    rw [add_rmatch_iff, char_rmatch_iff, ih]
    simp

theorem rmatch_many1_oneOf (as : List α) :
    (many1 (oneOf as)).rmatch x = true ↔ x ≠ [] ∧ ∀ a ∈ x, a ∈ as := by
  unfold many1
  rw [mul_rmatch_iff]
  constructor
  · rintro ⟨t, u, rfl, ht, hu⟩
    obtain ⟨a, ha, rfl⟩ := (rmatch_oneOf as).mp ht
    obtain ⟨words, rfl, hwords⟩ := (star_rmatch_iff _ _).mp hu
    refine ⟨cons_ne_nil _ _, forall_mem_cons.mpr ⟨ha, fun b hb => ?_⟩⟩
    obtain ⟨w, hw, hb⟩ := mem_flatten.mp hb
    obtain ⟨c, hc, rfl⟩ := (rmatch_oneOf as).mp (hwords w hw).2
    exact mem_singleton.mp hb ▸ hc
  · rintro ⟨hne, hall⟩
    cases x with
    | nil => exact absurd rfl hne
    | cons a x =>
      obtain ⟨ha, hall⟩ := forall_mem_cons.mp hall
      refine ⟨[a], x, rfl, (rmatch_oneOf as).mpr ⟨a, ha, rfl⟩, (star_rmatch_iff _ _).mpr ?_⟩
      refine ⟨x.map fun b => [b], (flatten_singletons x).symm, ?_⟩
      refine forall_mem_map.mpr fun b hb => ?_
      exact ⟨cons_ne_nil b [], (rmatch_oneOf as).mpr ⟨b, hall b hb, rfl⟩⟩

theorem rmatch_optional : (optional P).rmatch x = true ↔ x = [] ∨ P.rmatch x = true := by
  unfold optional
  rw [add_rmatch_iff, one_rmatch_iff]

end Matching

/-! ### The symbols of a pattern -/

def symbols : RegularExpression α → List α
  | .zero => []
  | .epsilon => []
  | .char a => [a]
  | .plus P Q => symbols P ++ symbols Q
  | .comp P Q => symbols P ++ symbols Q
  | .star P => symbols P

theorem mem_symbols {P : RegularExpression α} {x : List α} (h : P.rmatch x = true) :
    ∀ a ∈ x, a ∈ symbols P := by
  induction P generalizing x with
  | zero =>
    rw [zero_def, zero_rmatch] at h
    exact absurd h Bool.false_ne_true
  | epsilon =>
    rw [one_def, one_rmatch_iff] at h
    exact fun a ha => absurd (h ▸ ha) not_mem_nil
  | char b =>
    rw [char_rmatch_iff] at h
    subst h
    exact fun a ha => ha
  | plus P Q hP hQ =>
    rw [plus_def, add_rmatch_iff] at h
    rcases h with h | h
    · exact fun a ha => mem_append_left _ (hP h a ha)
    · exact fun a ha => mem_append_right _ (hQ h a ha)
  | comp P Q hP hQ =>
    rw [comp_def, mul_rmatch_iff] at h
    obtain ⟨t, u, rfl, ht, hu⟩ := h
    intro a ha
    rcases mem_append.mp ha with ha | ha
    · exact mem_append_left _ (hP ht a ha)
    · exact mem_append_right _ (hQ hu a ha)
  | star P hP =>
    obtain ⟨words, rfl, hwords⟩ := (star_rmatch_iff _ _).mp h
    intro a ha
    obtain ⟨w, hw, ha⟩ := mem_flatten.mp ha
    exact hP (hwords w hw).2 a ha

end Patterns

import Mathlib.Data.List.Induction

/-!
# Loops that may stop with an error

A loop over a list whose body may fail is `List.foldlM` in `Except`. `foldlM_ok_cons` peels off the
first round, `foldlM_history` is the loop rule, and two loops whose rounds keep their states related
end in the same way (`Related.foldlM`).
-/

namespace ExceptFold

open Except Function List

variable {α β ε : Type} {f : β → α → Except ε β}

variable {γ : Type} {x : Except ε α} {g : α → Except ε γ}

theorem bind_eq_ok {c : γ} : (x >>= g) = .ok c ↔ ∃ a, x = .ok a ∧ g a = .ok c := by
  cases x with
  | error e => exact ⟨nofun, fun ⟨_, h, _⟩ => (nomatch h)⟩
  | ok a => exact ⟨fun h => ⟨a, rfl, h⟩, fun ⟨_, h, hg⟩ => ok.inj h ▸ hg⟩

variable {e : ε}

theorem bind_eq_error : (x >>= g) = .error e ↔ x = .error e ∨ ∃ a, x = .ok a ∧ g a = .error e := by
  cases x with
  | error e' =>
    refine ⟨fun h => .inl (congrArg _ (error.inj h)), ?_⟩
    rintro (h | ⟨_, h, -⟩)
    · exact congrArg _ (error.inj h)
    · cases h
  | ok a =>
    refine ⟨fun h => .inr ⟨a, rfl, h⟩, ?_⟩
    rintro (h | ⟨_, h, hg⟩)
    · cases h
    · exact ok.inj h ▸ hg

variable {a : α}

theorem eq_ok_of_toOption (h : x.toOption = some a) : x = .ok a := by
  cases x with
  | error e => cases h
  | ok b => exact congrArg _ (Option.some.inj h)

theorem exists_ok_of_isSome (h : x.toOption.isSome = true) : ∃ a, x = .ok a := by
  cases x with
  | ok a => exact ⟨a, rfl⟩
  | error e => cases h

theorem mapError_eq_ok {ε' : Type} {g : ε → ε'} : x.mapError g = .ok a ↔ x = .ok a := by
  cases x with
  | ok b => exact ⟨fun h => congrArg _ (ok.inj h), fun h => congrArg _ (ok.inj h)⟩
  | error e => exact iff_of_false nofun nofun

variable {l : List α} {b : β}

theorem foldlM_ok_cons {c : β} :
    (a :: l).foldlM f b = .ok c ↔ ∃ b', f b a = .ok b' ∧ l.foldlM f b' = .ok c := by
  exact bind_eq_ok

theorem foldlM_eq_error_iff :
    l.foldlM f b = .error e ↔ ∃ done a rest b', l = done ++ a :: rest ∧
      done.foldlM f b = .ok b' ∧ f b' a = .error e := by
  induction l generalizing b with
  | nil => exact ⟨nofun, fun ⟨done, a, rest, b', h, _⟩ => by simp at h⟩
  | cons a l ih =>
    rw [foldlM_cons, bind_eq_error]
    constructor
    · rintro (h | ⟨b', hab, h⟩)
      · exact ⟨[], a, l, b, rfl, rfl, h⟩
      · obtain ⟨done, a', rest, b'', rfl, hdone, h⟩ := ih.mp h
        exact ⟨a :: done, a', rest, b'', rfl, foldlM_ok_cons.mpr ⟨b', hab, hdone⟩, h⟩
    · rintro ⟨done, a', rest, b', heq, hdone, h⟩
      cases done with
      | nil =>
        cases heq
        cases hdone
        exact .inl h
      | cons a'' done =>
        cases heq
        obtain ⟨b'', hab, hdone⟩ := foldlM_ok_cons.mp hdone
        exact .inr ⟨b'', hab, ih.mpr ⟨done, a', rest, b', rfl, hdone, h⟩⟩

theorem foldlM_ok_append {l₁ l₂ : List α} {c : β} :
    (l₁ ++ l₂).foldlM f b = .ok c ↔ ∃ b', l₁.foldlM f b = .ok b' ∧ l₂.foldlM f b' = .ok c := by
  rw [foldlM_append]
  exact bind_eq_ok

/-- **The loop rule.** `P` speaks about the elements consumed so
far and the state; a round consumes one more element. -/
theorem foldlM_history {P : List α → β → Prop} {c : β}
    (hstep : ∀ done a b b', P done b → f b a = .ok b' → P (done ++ [a]) b') (done : List α)
    (hb : P done b) (h : l.foldlM f b = .ok c) : P (done ++ l) c := by
  induction l generalizing b done with
  | nil => rw [append_nil]; exact ok.inj h ▸ hb
  | cons a l ih =>
    obtain ⟨b', hab, hl⟩ := foldlM_ok_cons.mp h
    have hlist : done ++ a :: l = (done ++ [a]) ++ l := by simp
    rw [hlist]
    exact ih (done ++ [a]) (hstep done a b b' hb hab) hl

theorem mapM_ok {out : List γ} (h : l.mapM g = .ok out) :
    (∀ c ∈ out, ∃ a ∈ l, g a = .ok c) ∧ ∀ a ∈ l, ∃ c ∈ out, g a = .ok c := by
  induction l generalizing out with
  | nil =>
    cases h
    exact ⟨nofun, nofun⟩
  | cons a l ih =>
    rw [mapM_cons, bind_eq_ok] at h
    obtain ⟨c, hc, h⟩ := h
    obtain ⟨cs, hcs, hout⟩ := bind_eq_ok.mp h
    cases hout
    obtain ⟨hfrom, hto⟩ := ih hcs
    simp only [mem_cons, exists_eq_or_imp]
    refine ⟨fun x hx => ?_, fun x hx => ?_⟩
    · rcases hx with rfl | hx
      · exact .inl hc
      · exact .inr (hfrom x hx)
    · rcases hx with rfl | hx
      · exact .inl hc
      · exact .inr (hto x hx)

theorem mapM_eq_error (h : l.mapM g = .error e) : ∃ a ∈ l, g a = .error e := by
  induction l with
  | nil =>
    cases h
  | cons a l ih =>
    rw [mapM_cons] at h
    rcases bind_eq_error.mp h with h | ⟨c, -, h⟩
    · exact ⟨a, mem_cons_self, h⟩
    · rcases bind_eq_error.mp h with h | ⟨_, -, h⟩
      · obtain ⟨a', ha', h⟩ := ih h
        exact ⟨a', mem_cons_of_mem a ha', h⟩
      · cases h

theorem forM_cons_ok {g : α → Except ε Unit} (h : g a = .ok ()) (l : List α) :
    (a :: l).forM g = l.forM g := by
  rw [forM_eq_forM, forM_cons, h]
  rfl

theorem forM_cons_error {g : α → Except ε Unit} (h : g a = .error e) (l : List α) :
    (a :: l).forM g = .error e := by
  rw [forM_eq_forM, forM_cons, h]
  rfl

theorem forM_eq_ok_iff {g : α → Except ε Unit} : l.forM g = .ok () ↔ ∀ a ∈ l, g a = .ok () := by
  induction l with
  | nil => exact iff_of_true rfl nofun
  | cons a l ih =>
    rw [forM_eq_forM, forM_cons, bind_eq_ok, forall_mem_cons, ← ih]
    constructor
    · rintro ⟨_, ha, hl⟩
      exact ⟨ha, hl⟩
    · rintro ⟨ha, hl⟩
      exact ⟨(), ha, hl⟩

/-- Two computations end in the same way: with one error, or with related values. -/
inductive Related {γ : Type} (R : β → γ → Prop) : Except ε β → Except ε γ → Prop
  | error (e : ε) : Related R (.error e) (.error e)
  | ok {b : β} {c : γ} (h : R b c) : Related R (.ok b) (.ok c)

variable {R : β → γ → Prop}

theorem Related.bind_left (x : Except ε α) {g : α → Except ε β} {g' : α → Except ε γ}
    (h : ∀ a, Related R (g a) (g' a)) :
    Related R (x >>= g) (x >>= g') := by
  cases x with
  | error e => exact .error e
  | ok a => exact h a

theorem Related.foldlM {g : γ → α → Except ε γ} (hstep : ∀ b c a, R b c → Related R (f b a) (g c a))
    (l : List α) {c : γ} (h : R b c) : Related R (l.foldlM f b) (l.foldlM g c) := by
  induction l generalizing b c with
  | nil => exact .ok h
  | cons a l ih =>
    rw [foldlM_cons, foldlM_cons]
    have hround := hstep b c a h
    generalize f b a = x at hround ⊢
    generalize g c a = y at hround ⊢
    cases hround with
    | error e => exact .error e
    | ok hnext => exact ih hnext

theorem foldl_always_iff {step : β → α → β} {I P : β → Prop} {T : β → α → Prop}
    (hI : ∀ done : List α, I (done.foldl step b)) (hb : P b)
    (hstep : ∀ b a, I b → P b → (P (step b a) ↔ ¬ T b a)) (l : List α) :
    (∀ done rest, l = done ++ rest → P (done.foldl step b)) ↔
      ∀ done a rest, l = done ++ a :: rest → ¬ T (done.foldl step b) a := by
  have happend : ∀ done a, (done ++ [a]).foldl step b = step (done.foldl step b) a := by
    intro done a
    rw [foldl_append]
    rfl
  constructor
  · intro hall done a rest hsplit
    -- the property holds before and after this round, so it did not go wrong
    have hbefore : P (done.foldl step b) := hall done (a :: rest) hsplit
    have hafter : P ((done ++ [a]).foldl step b) :=
      hall (done ++ [a]) rest (by rw [hsplit, append_assoc, singleton_append])
    rw [happend] at hafter
    exact (hstep _ a (hI done) hbefore).mp hafter
  · intro hnone done
    -- along the rounds that were made so far
    induction done using reverseRecOn with
    | nil => exact fun _ _ => hb
    | append_singleton done a ih =>
      intro rest hsplit
      rw [append_assoc, singleton_append] at hsplit
      rw [happend]
      exact (hstep _ a (hI done) (ih (a :: rest) hsplit)).mpr (hnone done a rest hsplit)

theorem update_restore {κ ν : Type} [DecidableEq κ] {m : κ → ν} {k : κ} {v w : ν}
    (hk : m k = w) : update (update m k v) k w = m := by
  rw [update_idem, ← hk, update_eq_self]

end ExceptFold

import Mathlib.Order.Lattice

/-!
# Leases on a register

A register holds a value with a version, and a writer names the version that it wants to replace.
What a reader has seen stays `Known`, so the value a write replaces is the one that its writer has
read. Somebody who acts on a *grant* until some time is `Backed`: the register has a grant of theirs
that lasts until then, or this time is over. Nobody loses their backing when the others only replace
expired grants (`Backed.replace`), and no two act at once (`Backed.unique`).
-/

namespace Leasing

/-! ### Versions -/

section

variable {α : Type} {version : α → ℕ} {register : Option α} {a b : α}

def Known (version : α → ℕ) (register : Option α) (a : α) : Prop :=
  ∃ b ∈ register, version a ≤ version b ∧ (version b = version a → b = a)

theorem known_of_read : Known version (some a) a := ⟨a, rfl, Nat.le_refl _, fun _ => rfl⟩

theorem Known.eq (h : Known version (some b) a) (hversion : version b = version a) : b = a := by
  obtain ⟨c, hc, -, heq⟩ := h
  cases hc
  exact heq hversion

theorem Known.write (h : Known version (some b) a) {b' : α} (hversion : version b < version b') :
    Known version (some b') a := by
  obtain ⟨c, hc, hle, -⟩ := h
  cases hc
  refine ⟨b', rfl, Nat.le_of_lt (Nat.lt_of_le_of_lt hle hversion), fun heq => ?_⟩
  exact absurd (heq ▸ hversion) (Nat.not_lt_of_le hle)

end

/-! ### Grants -/

/-- The right to act, until it expires. -/
structure Grant (κ T : Type) where
  holder : κ
  expiry : T

/-- The register has a grant that lasts until `u`, or `u` is over. -/
def Backed {κ T : Type} [LE T] (now : T) (grant : Option (Grant κ T)) (k : κ) (u : T) : Prop :=
  (∃ g ∈ grant, g.holder = k ∧ u ≤ g.expiry) ∨ u ≤ now

section Backed

variable {κ T : Type} [LinearOrder T] {now now' u u' : T} {grant grant' : Option (Grant κ T)}
  {k k' : κ}

theorem backed_of_mem {g : Grant κ T} (hg : g ∈ grant) (hholder : g.holder = k)
    (hexpiry : u ≤ g.expiry) : Backed now grant k u :=
  .inl ⟨g, hg, hholder, hexpiry⟩

theorem Backed.later (h : Backed now grant k u) (hnow : now ≤ now') : Backed now' grant k u :=
  h.imp_right fun hu => hu.trans hnow

theorem Backed.replace (h : Backed now grant k u)
    (hexpired : ∀ g ∈ grant, g.holder = k → g.expiry ≤ now) : Backed now grant' k u := by
  rcases h with ⟨g, hg, hholder, hu⟩ | hu
  · exact .inr (hu.trans (hexpired g hg hholder))
  · exact .inr hu

theorem Backed.unique (h : Backed now grant k u) (h' : Backed now grant k' u') (hu : now < u)
    (hu' : now < u') : k = k' := by
  rcases h with ⟨g, hg, rfl, -⟩ | hover
  · rcases h' with ⟨g', hg', rfl, -⟩ | hover
    · rw [Option.mem_unique hg hg']
    · exact absurd hover (not_le.mpr hu')
  · exact absurd hover (not_le.mpr hu)

end Backed

end Leasing

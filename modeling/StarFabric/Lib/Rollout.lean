import StarFabric.Lib.Edits

/-!
# Changing a store whose entries refer to each other

Entries of a store refer to other keys, and a store is *closed* when everything that is referred to
is there. Keys are changed one by one, so on the way the store is a mixture of old and new entries
(`mix`). `closed_throughout_iff` says which sequences keep the store closed at every moment: a new
entry comes after the new keys it refers to, and an old one is changed before the keys it refers to
go away (`Before`).
-/

namespace Rollout

open Edits List

variable {κ ε : Type} [DecidableEq κ]

def Closed (refs : ε → κ → Prop) (s : κ → Option ε) : Prop :=
  ∀ k e, s k = some e → ∀ r, refs e r → s r ≠ none

def mix (old new : κ → Option ε) (changed : List κ) : κ → Option ε :=
  fun k => if k ∈ changed then new k else old k

/-- Every beginning of the sequence that has `k` has `r`. -/
def Before (sequence : List κ) (r k : κ) : Prop :=
  ∀ done rest, sequence = done ++ rest → k ∈ done → r ∈ done

variable {old new : κ → Option ε} {refs : ε → κ → Prop} {sequence : List κ} {r k : κ}

theorem run_eq_mix (changed : List κ) :
    run old (changed.map fun k => ⟨k, new k⟩) = mix old new changed := by
  have hlast : ∀ k, last k (changed.map fun k => (⟨k, new k⟩ : Edit κ (Option ε))) =
      if k ∈ changed then some (new k) else none := by
    intro k
    induction changed with
    | nil => rfl
    | cons head changed ih =>
      rw [map_cons, last, ih]
      by_cases hmem : k ∈ changed
      · rw [if_pos hmem, if_pos (mem_cons_of_mem head hmem)]
        rfl
      · rw [if_neg hmem, Option.none_or]
        by_cases hhead : head = k
        · subst hhead
          rw [if_pos rfl, if_pos mem_cons_self]
        · rw [if_neg hhead, if_neg]
          rintro (_ | ⟨_, hlater⟩)
          · exact hhead rfl
          · exact hmem hlater
  funext k
  rw [run_apply, hlast]
  unfold mix
  split_ifs <;> rfl

theorem closed_throughout_iff (hold : Closed refs old) (hnew : Closed refs new) :
    (∀ done rest, sequence = done ++ rest → Closed refs (mix old new done)) ↔
      (∀ k e, new k = some e → ∀ r, refs e r → old r = none → Before sequence r k) ∧
        ∀ k e, old k = some e → ∀ r, refs e r → new r = none → Before sequence k r := by
  constructor
  · intro hclosed
    constructor
    · intro k e hk r hr hnone done rest hsequence hdone
      by_contra hnot
      have hmix : mix old new done k = some e := (if_pos hdone).trans hk
      exact hclosed done rest hsequence k e hmix r hr ((if_neg hnot).trans hnone)
    · intro k e hk r hr hnone done rest hsequence hdone
      by_contra hnot
      have hmix : mix old new done k = some e := (if_neg hnot).trans hk
      exact hclosed done rest hsequence k e hmix r hr ((if_pos hdone).trans hnone)
  · rintro ⟨hadded, hremoved⟩ done rest hsequence k e hk r hr hnone
    unfold mix at hk hnone
    -- the entry and what it refers to may each be old or new
    split_ifs at hk hnone with hkdone hrdone hrdone
    · exact hnew k e hk r hr hnone
    · exact hrdone (hadded k e hk r hr hnone done rest hsequence hkdone)
    · exact hkdone (hremoved k e hk r hr hnone done rest hsequence hrdone)
    · exact hold k e hk r hr hnone

omit [DecidableEq κ] in
theorem before_of_notMem (h : k ∉ sequence) : Before sequence r k := by
  rintro done rest rfl hk
  exact absurd (mem_append_left rest hk) h

theorem before_iff {R : κ → κ → Prop} (hsorted : sequence.Pairwise R)
    (hasymm : ∀ a b, R a b → ¬ R b a) (hr : r ∈ sequence) (hk : k ∈ sequence) (hne : r ≠ k) :
    Before sequence r k ↔ R r k := by
  constructor
  · intro hbefore
    obtain ⟨front, back, rfl⟩ := append_of_mem hk
    have hsplit : front ++ k :: back = (front ++ [k]) ++ back := by
      rw [append_assoc, singleton_append]
    have hfront : r ∈ front ++ [k] := hbefore _ back hsplit (mem_append_right _ mem_cons_self)
    rcases mem_append.mp hfront with hmem | hlast
    · exact (pairwise_append.mp hsorted).2.2 r hmem k mem_cons_self
    · exact absurd (mem_singleton.mp hlast) hne
  · rintro hR done rest rfl hdone
    by_contra hnot
    have hrest : r ∈ rest := (mem_append.mp hr).resolve_left hnot
    exact hasymm r k hR ((pairwise_append.mp hsorted).2.2 k hdone r hrest)

theorem mix_ne_none (hold : old k ≠ none) (hnew : new k ≠ none) (changed : List κ) :
    mix old new changed k ≠ none := by
  unfold mix
  split_ifs
  · exact hnew
  · exact hold

theorem mix_eq_new (h : ∀ k, k ∉ sequence → old k = new k) : mix old new sequence = new := by
  funext k
  unfold mix
  split_ifs with hk
  · rfl
  · exact h k hk

end Rollout

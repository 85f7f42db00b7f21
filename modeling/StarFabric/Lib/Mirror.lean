import Mathlib.Data.List.Basic

/-!
# A value mirrored over a queue of edits

A receiver holds a copy of a sender's value and is brought up to date by a queue of edits, applied
in order. Each edit either overwrites the value or does not concern it (`on`). The copy mirrors the
value when replaying what is still in the queue yields it.
-/

namespace Mirror

open List

variable {ε ν : Type} (on : ε → Option ν)

def replay (x : ν) (edits : List ε) : ν := edits.foldl (fun x e => (on e).getD x) x

theorem replay_cons (x : ν) (e : ε) (edits : List ε) :
    replay on x (e :: edits) = replay on ((on e).getD x) edits := rfl

theorem replay_append (x : ν) (edits edits' : List ε) :
    replay on x (edits ++ edits') = replay on (replay on x edits) edits' := by
  unfold replay
  rw [foldl_append]

variable {on}

theorem replay_of_none {edits : List ε} (h : ∀ e ∈ edits, on e = none) (x : ν) :
    replay on x edits = x := by
  induction edits with
  | nil => rfl
  | cons e edits ih =>
    obtain ⟨he, hedits⟩ := forall_mem_cons.mp h
    rw [replay_cons, he]
    exact ih hedits

theorem replay_of_some {edits : List ε} {v : ν} (h : ∀ e ∈ edits, on e = none ∨ on e = some v)
    (hex : ∃ e ∈ edits, on e = some v) (x : ν) : replay on x edits = v := by
  induction edits generalizing x with
  | nil =>
    obtain ⟨e, he, -⟩ := hex
    cases he
  | cons e edits ih =>
    obtain ⟨he, hedits⟩ := forall_mem_cons.mp h
    rw [replay_cons]
    by_cases hlater : ∃ e ∈ edits, on e = some v
    · exact ih hedits hlater _
    · -- the first edit is the one that writes, and no later one does
      have hnone : ∀ e ∈ edits, on e = none :=
        fun e he => (hedits e he).resolve_right fun hsome => hlater ⟨e, he, hsome⟩
      obtain ⟨e', he', hsome⟩ := hex
      obtain rfl | hmem := mem_cons.mp he'
      · rw [hsome, Option.getD_some]
        exact replay_of_none hnone v
      · exact absurd ⟨e', hmem, hsome⟩ hlater

end Mirror

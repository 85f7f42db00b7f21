import Mathlib.Data.List.Basic

/-!
# Sequences of edits

A store gives a value to every key. An *edit* sets the value of one key, and a batch of edits is
carried out one by one (`run`). What a batch does to a key is decided by the last edit of this key
(`last`, `run_apply`). In particular a batch leaves the store as it was exactly when the last edit
of every key it mentions puts the old value back (`run_eq_self_iff`).
-/

namespace Edits

open Function

variable {κ β : Type} [DecidableEq κ]

structure Edit (κ β : Type) where
  key : κ
  value : β
  deriving DecidableEq, Repr

def Edit.apply (s : κ → β) (e : Edit κ β) : κ → β := update s e.key e.value

def run (s : κ → β) (edits : List (Edit κ β)) : κ → β := edits.foldl Edit.apply s

def last (k : κ) : List (Edit κ β) → Option β
  | [] => none
  | e :: edits => (last k edits).or (if e.key = k then some e.value else none)

variable {s : κ → β} {edits more : List (Edit κ β)} {k : κ}

@[simp] theorem run_cons {e : Edit κ β} : run s (e :: edits) = run (e.apply s) edits := rfl

@[simp] theorem run_append : run s (edits ++ more) = run (run s edits) more := List.foldl_append

theorem run_apply (s : κ → β) (edits : List (Edit κ β)) (k : κ) :
    run s edits k = (last k edits).getD (s k) := by
  induction edits generalizing s with
  | nil => rfl
  | cons e edits ih =>
    rw [run_cons, ih, last]
    cases last k edits with
    | some v => rfl
    | none =>
      show update s e.key e.value k = (if e.key = k then some e.value else none).getD (s k)
      split_ifs with hk
      · rw [← hk, update_self]
        rfl
      · rw [update_of_ne (Ne.symm hk)]
        rfl

theorem run_eq_self_iff : run s edits = s ↔ ∀ k v, last k edits = some v → s k = v := by
  constructor
  · intro hrun k v hlast
    have hk : run s edits k = s k := congrFun hrun k
    rw [run_apply, hlast] at hk
    exact hk.symm
  · intro hlast
    funext k
    rw [run_apply]
    cases hk : last k edits with
    | none => rfl
    | some v => exact (hlast k v hk).symm

end Edits

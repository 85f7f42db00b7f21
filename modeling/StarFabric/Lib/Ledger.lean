import Mathlib.Data.List.Induction

/-!
# A ledger that is written after the fact

Lists of writes put things in place and take them away again, and may stop at any point. A ledger is
only brought up to date when a whole list has been carried out, so a thing can be in place without
the ledger saying so (`LeftBehind`). As long as only things of the ledger are taken away, this is
the only way (`actual_iff_leftBehind`).
-/

namespace Ledger

open Function List Prod

variable {κ : Type}

/-- A list of writes, each of which puts a thing in place or takes it away, with the number of
writes that were carried out when it did not come to its end. -/
structure Batch (κ : Type) where
  entries : List (κ × Bool)
  failed : Option ℕ

def Batch.executed (b : Batch κ) : List (κ × Bool) :=
  match b.failed with
  | none => b.entries
  | some n => b.entries.take n

structure State (κ : Type) where
  actual : κ → Bool
  recorded : κ → Bool

/-- A list writes everything once, and takes away only what the ledger has. -/
structure Batch.Proper (b : Batch κ) (s : State κ) : Prop where
  nodup : (b.entries.map fst).Nodup
  recorded : ∀ k, (k, false) ∈ b.entries → s.recorded k = true

variable {b : Batch κ}

theorem Batch.mem_of_executed {e : κ × Bool} (h : e ∈ b.executed) : e ∈ b.entries := by
  unfold Batch.executed at h
  cases hfailed : b.failed with
  | none =>
    rw [hfailed] at h
    exact h
  | some n =>
    rw [hfailed] at h
    exact mem_of_mem_take h

theorem Batch.Proper.nodup_executed {s : State κ} (h : b.Proper s) :
    (b.executed.map fst).Nodup := by
  unfold Batch.executed
  cases b.failed with
  | none => exact h.nodup
  | some n =>
    show ((b.entries.take n).map fst).Nodup
    rw [map_take]
    exact h.nodup.sublist (take_sublist n _)

variable [DecidableEq κ]

def write {ν : Type} (m : κ → ν) (entries : List (κ × ν)) : κ → ν :=
  entries.foldl (fun m e => update m e.1 e.2) m

def State.apply (s : State κ) (b : Batch κ) : State κ where
  actual := write s.actual b.executed
  recorded := if b.failed.isNone then write s.recorded b.entries else s.recorded

def run (log : List (Batch κ)) : State κ :=
  log.foldl State.apply ⟨fun _ => false, fun _ => false⟩

def Proper (log : List (Batch κ)) : Prop :=
  ∀ before b after, log = before ++ b :: after → b.Proper (run before)

/-- A list stopped after it had put `k` in place, which the ledger did not have, and no later list
that puts `k` in place has come to its end. -/
def LeftBehind (log : List (Batch κ)) (k : κ) : Prop :=
  ∃ before b after, log = before ++ b :: after ∧ b.failed ≠ none ∧ (k, true) ∈ b.executed ∧
    (run before).recorded k = false ∧ ∀ b' ∈ after, b'.failed = none → (k, true) ∉ b'.entries

section Writes

variable {ν : Type} {entries : List (κ × ν)} {k : κ}

theorem write_of_not_mem (h : ∀ v, (k, v) ∉ entries) (m : κ → ν) : write m entries k = m k := by
  induction entries generalizing m with
  | nil => rfl
  | cons e entries ih =>
    have hne : k ≠ e.1 := fun heq => h e.2 (heq ▸ mem_cons_self)
    refine (ih (fun v hv => h v (mem_cons_of_mem _ hv)) _).trans ?_
    exact update_of_ne hne _ _

theorem write_of_mem (hnodup : (entries.map fst).Nodup) {v : ν} (h : (k, v) ∈ entries)
    (m : κ → ν) : write m entries k = v := by
  induction entries generalizing m with
  | nil => cases h
  | cons e entries ih =>
    rw [map_cons, nodup_cons] at hnodup
    obtain rfl | hmem := mem_cons.mp h
    · have hlater : ∀ w, (k, w) ∉ entries :=
        fun w hw => hnodup.1 (mem_map.mpr ⟨_, hw, rfl⟩)
      exact (write_of_not_mem hlater _).trans (update_self _ _ _)
    · exact ih hnodup.2 hmem _

end Writes

/-! ### Logs -/

theorem run_append (log : List (Batch κ)) (b : Batch κ) : run (log ++ [b]) = (run log).apply b := by
  unfold run
  rw [foldl_append]
  rfl

variable {log : List (Batch κ)}

theorem proper_append : Proper (log ++ [b]) ↔ Proper log ∧ b.Proper (run log) := by
  constructor
  · intro h
    refine ⟨fun before b' after heq => ?_, h log b [] rfl⟩
    refine h before b' (after ++ [b]) ?_
    rw [heq, append_assoc]
    rfl
  · rintro ⟨hlog, hb⟩ before b' after heq
    obtain rfl | ⟨after', last, rfl⟩ := eq_nil_or_concat after
    · obtain ⟨rfl, hlast⟩ := append_inj' heq rfl
      cases hlast
      exact hb
    · rw [concat_eq_append] at heq
      refine hlog before b' after' ?_
      have hinit : log ++ [b] = (before ++ b' :: after') ++ [last] := by
        rw [heq, append_assoc]
        rfl
      exact (append_inj' hinit rfl).1

theorem leftBehind_append {k : κ} :
    LeftBehind (log ++ [b]) k ↔
      (LeftBehind log k ∧ (b.failed = none → (k, true) ∉ b.entries)) ∨
      (b.failed ≠ none ∧ (k, true) ∈ b.executed ∧ (run log).recorded k = false) := by
  constructor
  · rintro ⟨before, b', after, heq, hfailed, hexecuted, hrecorded, hafter⟩
    obtain rfl | ⟨after', last, rfl⟩ := eq_nil_or_concat after
    · obtain ⟨rfl, hlast⟩ := append_inj' heq rfl
      cases hlast
      exact .inr ⟨hfailed, hexecuted, hrecorded⟩
    · rw [concat_eq_append] at heq hafter
      have hinit : log ++ [b] = (before ++ b' :: after') ++ [last] := by
        rw [heq, append_assoc]
        rfl
      obtain ⟨hlog, hlast⟩ := append_inj' hinit rfl
      cases hlast
      refine .inl ⟨⟨before, b', after', hlog, hfailed, hexecuted, hrecorded, fun c hc => ?_⟩, ?_⟩
      · exact hafter c (mem_append_left _ hc)
      · exact hafter b (mem_append_right _ mem_cons_self)
  · rintro (⟨⟨before, b', after, rfl, hfailed, hexecuted, hrecorded, hafter⟩, hb⟩ |
      ⟨hfailed, hexecuted, hrecorded⟩)
    · refine ⟨before, b', after ++ [b], ?_, hfailed, hexecuted, hrecorded, fun c hc => ?_⟩
      · rw [append_assoc]
        rfl
      · obtain hc | hc := mem_append.mp hc
        · exact hafter c hc
        · rw [mem_singleton.mp hc]
          exact hb
    · exact ⟨log, b, [], rfl, hfailed, hexecuted, hrecorded, nofun⟩

theorem mem_entries_cases (entries : List (κ × Bool)) (k : κ) :
    (k, true) ∈ entries ∨ (k, false) ∈ entries ∨ ∀ v, (k, v) ∉ entries := by
  by_cases htrue : (k, true) ∈ entries
  · exact .inl htrue
  · by_cases hfalse : (k, false) ∈ entries
    · exact .inr (.inl hfalse)
    · refine .inr (.inr fun v => ?_)
      cases v with
      | true => exact htrue
      | false => exact hfalse

/-- **What the ledger does not say**: a thing that it does not have is in place exactly when it was
left behind. -/
theorem actual_iff_leftBehind (h : Proper log) (k : κ) :
    (LeftBehind log k → (run log).recorded k = false) ∧
      ((run log).recorded k = false → ((run log).actual k = true ↔ LeftBehind log k)) := by
  induction log using reverseRecOn with
  | nil =>
    have hnone : ¬ LeftBehind [] k := by
      rintro ⟨before, b, after, heq, -⟩
      cases before with
      | nil => cases heq
      | cons _ _ => cases heq
    exact ⟨fun h => absurd h hnone, fun _ => ⟨nofun, fun h => absurd h hnone⟩⟩
  | append_singleton log b ih =>
    obtain ⟨hlog, hb⟩ := proper_append.mp h
    obtain ⟨hunrecorded, hactual⟩ := ih hlog
    rw [run_append, leftBehind_append]
    cases hfailed : b.failed with
    | none =>
      have hexecuted : b.executed = b.entries := by
        unfold Batch.executed
        rw [hfailed]
      have hrecord : ((run log).apply b).recorded = write (run log).recorded b.entries := by
        unfold State.apply
        rw [hfailed]
        rfl
      have hwrite : ((run log).apply b).actual = write (run log).actual b.entries := by
        unfold State.apply
        rw [hexecuted]
      have hleft : ((LeftBehind log k ∧ ((none : Option ℕ) = none → (k, true) ∉ b.entries)) ∨
          ((none : Option ℕ) ≠ none ∧ (k, true) ∈ b.executed ∧ (run log).recorded k = false)) ↔
          LeftBehind log k ∧ (k, true) ∉ b.entries := by
        constructor
        · rintro (⟨h, hnot⟩ | ⟨hne, -⟩)
          · exact ⟨h, hnot rfl⟩
          · exact absurd rfl hne
        · rintro ⟨h, hnot⟩
          exact .inl ⟨h, fun _ => hnot⟩
      rw [hleft, hrecord, hwrite]
      obtain hmem | hmem | hnot := mem_entries_cases b.entries k
      · rw [write_of_mem hb.nodup hmem]
        exact ⟨fun h => absurd hmem h.2, nofun⟩
      · -- it was in the ledger, so it was not left behind
        rw [write_of_mem hb.nodup hmem, write_of_mem hb.nodup hmem]
        refine ⟨fun _ => rfl, fun _ => ⟨nofun, fun h => ?_⟩⟩
        have hfalse := hunrecorded h.1
        rw [hb.recorded k hmem] at hfalse
        cases hfalse
      · rw [write_of_not_mem hnot, write_of_not_mem hnot]
        refine ⟨fun h => hunrecorded h.1, fun hk => (hactual hk).trans ?_⟩
        exact ⟨fun h => ⟨h, hnot true⟩, fun h => h.1⟩
    | some n =>
      have hrecord : ((run log).apply b).recorded = (run log).recorded := by
        unfold State.apply
        rw [hfailed]
        rfl
      rw [hrecord]
      have hleft : ((LeftBehind log k ∧ (some n = none → (k, true) ∉ b.entries)) ∨
          (some n ≠ none ∧ (k, true) ∈ b.executed ∧ (run log).recorded k = false)) ↔
          LeftBehind log k ∨ (k, true) ∈ b.executed ∧ (run log).recorded k = false := by
        constructor
        · rintro (⟨h, -⟩ | ⟨-, h⟩)
          · exact .inl h
          · exact .inr h
        · rintro (h | h)
          · exact .inl ⟨h, nofun⟩
          · exact .inr ⟨nofun, h⟩
      rw [hleft]
      refine ⟨fun h => h.elim hunrecorded fun h => h.2, fun hk => ?_⟩
      show write (run log).actual b.executed k = true ↔ _
      obtain hmem | hmem | hnot := mem_entries_cases b.executed k
      · rw [write_of_mem hb.nodup_executed hmem]
        exact ⟨fun _ => .inr ⟨hmem, hk⟩, fun _ => rfl⟩
      · have hfalse := hb.recorded k (Batch.mem_of_executed hmem)
        rw [hk] at hfalse
        cases hfalse
      · rw [write_of_not_mem hnot, hactual hk]
        exact ⟨.inl, fun h => h.elim id fun h => absurd h.1 (hnot true)⟩

end Ledger

import Mathlib.Data.List.Nodup

/-!
# Lists searched by a key

A slice of records that is searched for the first record with a given key. `Put`
says that one list is another with the record of one key written; appending a
record of a new key and changing the first record of a key are both `Put`s.
-/

namespace Keyed

open List

variable {α κ : Type} [DecidableEq κ] {key : α → κ} {l : List α}

def lookup (key : α → κ) (l : List α) (k : κ) : Option α := l.find? fun a => key a = k

/-- `l'` is `l` with the record of key `k` written to `v`. -/
structure Put (key : α → κ) (k : κ) (v : α) (l l' : List α) : Prop where
  self : lookup key l' k = some v
  other : ∀ k', k' ≠ k → lookup key l' k' = lookup key l k'

theorem put_append {v : α} (hnew : lookup key l (key v) = none) :
    Put key (key v) v l (l ++ [v]) := by
  unfold lookup at hnew
  refine ⟨?_, fun k' hk => ?_⟩
  · unfold lookup
    rw [find?_append, hnew, Option.none_or]
    exact find?_cons_of_pos (by simp)
  · unfold lookup
    rw [find?_append, find?_cons_of_neg (by simpa using hk.symm), find?_nil, Option.or_none]

variable {k : κ} {i : ℕ} {f : α → α}

theorem put_modify (hf : ∀ a, key a = k → key (f a) = k)
    (hi : l.findIdx? (fun a => key a = k) = some i) :
    ∃ old, lookup key l k = some old ∧ key old = k ∧ Put key k (f old) l (l.modify i f) := by
  induction l generalizing i with
  | nil => cases hi
  | cons a l ih =>
    rw [findIdx?_cons] at hi
    by_cases ha : key a = k
    · rw [if_pos (by simpa using ha)] at hi
      cases hi
      refine ⟨a, find?_cons_of_pos (by simpa using ha), ha,
        find?_cons_of_pos (by simpa using hf a ha), fun k' hk => ?_⟩
      have hne : key a ≠ k' := fun h => hk (h.symm.trans ha)
      have hne' : key (f a) ≠ k' := fun h => hk (h.symm.trans (hf a ha))
      unfold lookup
      rw [modify_zero_cons, find?_cons_of_neg (by simpa using hne'),
        find?_cons_of_neg (by simpa using hne)]
    · -- the first record of the key is in the tail
      rw [if_neg (by simpa using ha)] at hi
      obtain ⟨j, hj, rfl⟩ := Option.map_eq_some_iff.mp hi
      obtain ⟨old, hfound, hold, hput⟩ := ih hj
      refine ⟨old, (find?_cons_of_neg (by simpa using ha)).trans hfound, hold, ?_, fun k' hk => ?_⟩
      · unfold lookup
        rw [modify_succ_cons, find?_cons_of_neg (by simpa using ha)]
        exact hput.self
      · unfold lookup
        rw [modify_succ_cons, find?_cons, find?_cons]
        split
        · rfl
        · exact hput.other k' hk

theorem modify_eq_map (hnodup : (l.map key).Nodup) (hi : l.findIdx? (fun a => key a = k) = some i) :
    l.modify i f = l.map fun a => if key a = k then f a else a := by
  induction l generalizing i with
  | nil => cases hi
  | cons a l ih =>
    rw [findIdx?_cons] at hi
    rw [map_cons, nodup_cons] at hnodup
    by_cases ha : key a = k
    · rw [if_pos (by simpa using ha)] at hi
      cases hi
      have hrest : ∀ b ∈ l, (if key b = k then f b else b) = b := by
        intro b hb
        refine if_neg fun hbk => hnodup.1 ?_
        rw [ha, ← hbk]
        exact mem_map_of_mem hb
      rw [modify_zero_cons, map_cons, if_pos ha, map_congr_left hrest, map_id']
    · rw [if_neg (by simpa using ha)] at hi
      obtain ⟨j, hj, rfl⟩ := Option.map_eq_some_iff.mp hi
      rw [modify_succ_cons, map_cons, if_neg ha, ih hnodup.2 hj]

theorem nodup_append_new {v : α} (hnodup : (l.map key).Nodup)
    (hnew : lookup key l (key v) = none) : ((l ++ [v]).map key).Nodup := by
  have hne : ∀ a ∈ l, key a ≠ key v := by
    intro a ha
    simpa using find?_eq_none.mp hnew a ha
  rw [map_append, map_cons, map_nil, ← concat_eq_append]
  refine List.Nodup.concat (fun hmem => ?_) hnodup
  obtain ⟨a, ha, hkey⟩ := mem_map.mp hmem
  exact hne a ha hkey

theorem map_key_modify (hf : ∀ a, key a = k → key (f a) = k)
    (hi : l.findIdx? (fun a => key a = k) = some i) : (l.modify i f).map key = l.map key := by
  induction l generalizing i with
  | nil => cases hi
  | cons a l ih =>
    rw [findIdx?_cons] at hi
    by_cases ha : key a = k
    · rw [if_pos (by simpa using ha)] at hi
      cases hi
      rw [modify_zero_cons, map_cons, map_cons, hf a ha, ha]
    · rw [if_neg (by simpa using ha)] at hi
      obtain ⟨j, hj, rfl⟩ := Option.map_eq_some_iff.mp hi
      rw [modify_succ_cons, map_cons, map_cons, ih hj]

theorem mem_iff_lookup (hnodup : (l.map key).Nodup) {a : α} :
    a ∈ l ↔ lookup key l (key a) = some a := by
  constructor
  · intro ha
    induction l with
    | nil => cases ha
    | cons b l ih =>
      rw [map_cons, nodup_cons] at hnodup
      unfold lookup
      rcases mem_cons.mp ha with rfl | ha
      · exact find?_cons_of_pos (by simp)
      · have hne : key b ≠ key a := fun h => hnodup.1 (h ▸ mem_map_of_mem ha)
        rw [find?_cons_of_neg (by simpa using hne)]
        exact ih hnodup.2 ha
  · exact mem_of_find?_eq_some

theorem perm_of_lookup_eq {l' : List α} (hnodup : (l.map key).Nodup)
    (hnodup' : (l'.map key).Nodup) (h : lookup key l = lookup key l') : l.Perm l' := by
  refine (perm_ext_iff_of_nodup (List.Nodup.of_map key hnodup)
    (List.Nodup.of_map key hnodup')).mpr fun a => ?_
  rw [mem_iff_lookup hnodup, mem_iff_lookup hnodup', h]

theorem lookup_eq_none_of_findIdx? (h : l.findIdx? (fun a => key a = k) = none) :
    lookup key l k = none := by
  rw [findIdx?_eq_none_iff] at h
  exact find?_eq_none.mpr fun a ha => by simpa using h a ha

end Keyed

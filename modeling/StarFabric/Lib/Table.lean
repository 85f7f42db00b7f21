import Mathlib.Data.List.Basic

/-!
# Tables that entries are written into by key

Entries carry a key and a value. Writing them one after the other (`install`) overwrites what stood
under their keys, and `withdraw` empties the keys of a list of entries. A table that is exactly a
list of entries (`Holds`) follows a new list by writing the new entries and withdrawing the ones
whose key is gone (`Holds.follow`).
-/

namespace KeyedTable

open Function List

variable {α κ ν : Type} [DecidableEq κ] (key : α → κ) (value : α → ν)

def install (entries : List α) (table : κ → Option ν) : κ → Option ν :=
  entries.foldl (fun t a => update t (key a) (some (value a))) table

def withdraw (entries : List α) (table : κ → Option ν) : κ → Option ν :=
  fun k => if k ∈ entries.map key then none else table k

def Holds (table : κ → Option ν) (entries : List α) : Prop :=
  ∀ k v, table k = some v ↔ ∃ a ∈ entries, key a = k ∧ value a = v

def Functional (entries : List α) : Prop :=
  ∀ a ∈ entries, ∀ b ∈ entries, key a = key b → value a = value b

instance decidableFunctional [DecidableEq ν] (entries : List α) :
    Decidable (Functional key value entries) :=
  inferInstanceAs (Decidable (∀ a ∈ entries, ∀ b ∈ entries, key a = key b → value a = value b))

/-! ### Writing -/

theorem install_cases (entries : List α) (table : κ → Option ν) (k : κ) :
    (∃ a ∈ entries, key a = k ∧ install key value entries table k = some (value a)) ∨
      ((∀ a ∈ entries, key a ≠ k) ∧ install key value entries table k = table k) := by
  induction entries generalizing table with
  | nil => exact .inr ⟨nofun, rfl⟩
  | cons first rest ih =>
    -- the later entries of the list win
    rcases ih (update table (key first) (some (value first))) with
      ⟨a, hmem, hkey, ha⟩ | ⟨hrest, hkept⟩
    · exact .inl ⟨a, mem_cons_of_mem _ hmem, hkey, ha⟩
    · -- no later entry has the key, so the first one decides
      by_cases hkey : key first = k
      · refine .inl ⟨first, mem_cons_self, hkey, ?_⟩
        show install key value rest _ k = _
        rw [hkept, ← hkey, update_self]
      · refine .inr ⟨forall_mem_cons.mpr ⟨hkey, hrest⟩, ?_⟩
        show install key value rest _ k = _
        rw [hkept, update_of_ne (Ne.symm hkey)]

variable {key value} {entries : List α} {table : κ → Option ν} {k : κ} {v : ν}

theorem install_eq_some (hfun : Functional key value entries) :
    install key value entries table k = some v ↔
      (∃ a ∈ entries, key a = k ∧ value a = v) ∨ (∀ a ∈ entries, key a ≠ k) ∧ table k = some v := by
  rcases install_cases key value entries table k with ⟨a, hmem, hkey, ha⟩ | ⟨hnone, hkept⟩
  · rw [ha]
    constructor
    · intro heq
      exact .inl ⟨a, hmem, hkey, Option.some.inj heq⟩
    · -- whichever entry with the key was written last, it has the same value
      rintro (⟨b, hb, hk, rfl⟩ | ⟨hnone, -⟩)
      · rw [hfun a hmem b hb (hkey.trans hk.symm)]
      · exact absurd hkey (hnone a hmem)
  · rw [hkept]
    constructor
    · intro heq
      exact .inr ⟨hnone, heq⟩
    · rintro (⟨b, hb, hk, -⟩ | ⟨-, heq⟩)
      · exact absurd hk (hnone b hb)
      · exact heq

/-! ### Withdrawing -/

theorem withdraw_eq_some :
    withdraw key entries table k = some v ↔ (∀ a ∈ entries, key a ≠ k) ∧ table k = some v := by
  unfold withdraw
  rw [ite_eq_iff]
  simp only [reduceCtorEq, and_false, false_or, mem_map, not_exists, not_and]

theorem withdraw_nil (table : κ → Option ν) : withdraw key [] table = table := by
  funext k
  exact if_neg not_mem_nil

theorem withdraw_cons (first : α) (rest : List α) (table : κ → Option ν) :
    withdraw key rest (update table (key first) none) = withdraw key (first :: rest) table := by
  funext k
  unfold withdraw
  rw [map_cons]
  by_cases hk : k = key first
  · rw [hk, update_self, if_pos mem_cons_self, ite_self]
  · rw [update_of_ne hk]
    simp only [mem_cons, hk, false_or]

theorem install_withdraw (hheld : ∀ a ∈ entries, table (key a) = some (value a)) :
    install key value entries (withdraw key entries table) = table := by
  funext k
  rcases install_cases key value entries (withdraw key entries table) k with
    ⟨a, hmem, rfl, ha⟩ | ⟨hnone, hkept⟩
  · -- a withdrawn key gets back what it had
    rw [ha, hheld a hmem]
  · rw [hkept]
    refine if_neg fun hk => ?_
    obtain ⟨a, hmem, hkey⟩ := mem_map.mp hk
    exact hnone a hmem hkey

/-! ### Following a list -/

theorem holds_install (hfun : Functional key value entries)
    (hcovered : ∀ k v, table k = some v → ∃ a ∈ entries, key a = k) :
    Holds key value (install key value entries table) entries := by
  intro k v
  rw [install_eq_some hfun, or_iff_left_iff_imp]
  rintro ⟨hnone, heq⟩
  obtain ⟨a, hmem, hkey⟩ := hcovered k v heq
  exact absurd hkey (hnone a hmem)

theorem Holds.withdraw_self (hheld : Holds key value table entries) :
    Holds key value (withdraw key entries table) [] := by
  intro k v
  rw [withdraw_eq_some]
  constructor
  · rintro ⟨hnone, heq⟩
    obtain ⟨a, hmem, hkey, -⟩ := (hheld k v).mp heq
    exact absurd hkey (hnone a hmem)
  · rintro ⟨a, hmem, -⟩
    cases hmem

theorem Holds.follow {previous desired changed obsolete : List α}
    (hheld : Holds key value table previous) (hfun : Functional key value desired)
    (hchanged : ∀ a, a ∈ changed ↔ a ∈ desired ∧ a ∉ previous)
    (hobsolete : ∀ a, a ∈ obsolete ↔ a ∈ previous ∧ ∀ b ∈ desired, key b ≠ key a) :
    Holds key value (withdraw key obsolete (install key value changed table)) desired := by
  -- the new entries are among the desired ones
  have hsub : Functional key value changed := fun a ha b hb =>
    hfun a ((hchanged a).mp ha).1 b ((hchanged b).mp hb).1
  intro k v
  rw [withdraw_eq_some, install_eq_some hsub, hheld]
  constructor
  · rintro ⟨hkept, ⟨a, ha, hkey, hval⟩ | ⟨hnew, a, ha, rfl, rfl⟩⟩
    · exact ⟨a, ((hchanged a).mp ha).1, hkey, hval⟩
    · -- an old entry that stays has its key in the new list, under an entry that is not new
      by_contra hgone
      refine hkept a ((hobsolete a).mpr ⟨ha, fun b hb hkey => ?_⟩) rfl
      by_cases hprev : b ∈ previous
      · have hb' : table (key b) = some (value b) := (hheld _ _).mpr ⟨b, hprev, rfl, rfl⟩
        have ha' : table (key a) = some (value a) := (hheld _ _).mpr ⟨a, ha, rfl, rfl⟩
        rw [hkey, ha'] at hb'
        exact hgone ⟨b, hb, hkey, (Option.some.inj hb').symm⟩
      · exact hnew b ((hchanged b).mpr ⟨hb, hprev⟩) hkey
  · rintro ⟨a, ha, rfl, rfl⟩
    refine ⟨fun b hb hkey => ((hobsolete b).mp hb).2 a ha hkey.symm, ?_⟩
    -- an entry that was there already is still there, unless a new one with its key was written
    by_cases hprev : a ∈ previous
    · by_cases hnew : ∃ b ∈ changed, key b = key a
      · obtain ⟨b, hb, hkey⟩ := hnew
        exact .inl ⟨b, hb, hkey, hfun b ((hchanged b).mp hb).1 a ha hkey⟩
      · exact .inr ⟨fun b hb hkey => hnew ⟨b, hb, hkey⟩, a, hprev, rfl, rfl⟩
    · exact .inl ⟨a, (hchanged a).mpr ⟨ha, hprev⟩, rfl, rfl⟩

end KeyedTable

import Mathlib.Algebra.Order.Ring.Int
import Mathlib.Data.List.Sort
import Mathlib.Data.List.AList
import Mathlib.Data.String.Basic

/-!
# The parts of Go's standard library the controller rests on

Instants and durations, machine integers as an ordered type, maps keyed by strings, sorted string
slices and error texts. `Time` counts nanoseconds from the zero instant of package `time`. A string
is compared code point by code point, which on valid UTF-8 is the order of the bytes that Go
compares.
-/

namespace Go

open Int Int64 List

/-! ### Time -/

/-- An instant, in nanoseconds after the zero `time.Time`. -/
abbrev Time := ℤ

abbrev Duration := ℤ

namespace Time

def isZero (t : Time) : Bool := t == 0

def maxDuration : Duration := 2 ^ 63 - 1
def minDuration : Duration := -2 ^ 63

/-- `Time.Sub`: the difference, saturated to the range of a duration. -/
def sub (t u : Time) : Duration := max minDuration (min maxDuration (t - u))

end Time

def second : Duration := 1000000000
def minute : Duration := 60 * second

/-- `Time.UnixNano`: nanoseconds from the beginning of 1970, in 64 bits. -/
def Time.unixNano (t : Time) : Int64 := Int64.ofInt (t - 62135596800 * second)

/-! ### Machine integers -/

instance int64LinearOrder : LinearOrder Int64 where
  le_refl a := by grind
  le_trans a b c := by grind
  lt_iff_le_not_ge a b := by grind
  le_antisymm a b := by grind
  le_total a b := by grind
  toDecidableLE := inferInstance

instance int64OrderTop : OrderTop Int64 where
  top := Int64.maxValue
  le_top a := by
    have ha := toInt_lt a
    rw [le_iff_toInt_le, toInt_maxValue]
    omega

theorem Int64.bmod_eq_self {n : ℤ} (hlow : -2 ^ 63 ≤ n) (hhigh : n < 2 ^ 63) :
    n.bmod (2 ^ 64) = n := by
  refine bmod_eq_of_le ?_ ?_
  · omega
  · omega

theorem Int64.toInt_add_of_lt {a b : Int64} (ha : 0 ≤ a) (hb : 0 ≤ b)
    (hab : a.toInt + b.toInt < 2 ^ 63) : (a + b).toInt = a.toInt + b.toInt := by
  rw [le_iff_toInt_le] at ha hb
  have h0 : (0 : Int64).toInt = 0 := rfl
  rw [toInt_add]
  exact bmod_eq_self (by omega) hab

theorem Int64.toInt_max (a b : Int64) : (max a b).toInt = max a.toInt b.toInt := by
  obtain h | h := le_total a b
  · rw [max_eq_right h, max_eq_right (le_iff_toInt_le.mp h)]
  · rw [max_eq_left h, max_eq_left (le_iff_toInt_le.mp h)]

theorem Int64.add_ne_zero {a b : Int64} (ha : 0 ≤ a) (hb : 0 < b) : a + b ≠ 0 := by
  intro h
  have hsum := congrArg Int64.toInt h
  have h0 : (0 : Int64).toInt = 0 := rfl
  have ha' := toInt_lt a
  have hb' := toInt_lt b
  rw [le_iff_toInt_le] at ha
  rw [lt_iff_toInt_lt] at hb
  rw [toInt_add, h0] at hsum
  have hdvd := dvd_of_bmod_eq_zero hsum
  omega

/-- The guard `a > math.MaxInt64 - b` against overflow. A negative `b` never passes it,
because the difference wraps around. -/
theorem Int64.toInt_add_of_guard {a b : Int64} (ha : 0 ≤ a) (hb : b ≠ 0)
    (h : ¬ Int64.maxValue - b < a) : 0 < b ∧ (a + b).toInt = a.toInt + b.toInt := by
  have hb' := toInt_lt b
  have hb'' := le_toInt b
  have h0 : (0 : Int64).toInt = 0 := rfl
  have hb0 : b.toInt ≠ 0 := fun h => hb (toInt_inj.mp h)
  rw [le_iff_toInt_le] at ha
  rw [not_lt, le_iff_toInt_le, toInt_sub, toInt_maxValue] at h
  have hpos : 0 < b.toInt := by
    by_contra hneg
    have hwrap : (2 ^ 63 - 1 - b.toInt).bmod (2 ^ 64) = 2 ^ 63 - 1 - b.toInt - 2 ^ 64 := by
      rw [bmod_def]
      omega
    omega
  refine ⟨lt_iff_toInt_lt.mpr hpos, ?_⟩
  rw [bmod_eq_of_le (by omega) (by omega)] at h
  rw [toInt_add]
  exact bmod_eq_of_le (by omega) (by omega)

/-! ### Maps, slices and texts -/

abbrev Map (V : Type) := AList fun _ : String => V

theorem of_lookup_insert {V : Type} {m : Map V} {key k : String} {v w : V}
    (h : (m.insert key v).lookup k = some w) : (k = key ∧ w = v) ∨ m.lookup k = some w := by
  by_cases hk : k = key
  · subst hk
    rw [AList.lookup_insert] at h
    exact .inl ⟨rfl, (Option.some.inj h).symm⟩
  · rw [AList.lookup_insert_ne hk] at h
    exact .inr h

/-- The map from keys to elements of a slice, filled in a loop. A later element takes the place
of an earlier one with the same key. -/
def mapBy {α : Type} (key : α → String) (l : List α) : Map α :=
  l.foldl (fun m a => m.insert (key a) a) ∅

section MapBy

variable {α : Type} {key : α → String} {l : List α}

variable {m : Map α} {k : String} {a : α}

theorem lookup_foldl_insert (h : (l.foldl (fun m a => m.insert (key a) a) m).lookup k = some a) :
    (a ∈ l ∧ key a = k) ∨ m.lookup k = some a := by
  induction l generalizing m with
  | nil => exact .inr h
  | cons b l ih =>
    rcases ih h with ⟨hmem, hkey⟩ | hm
    · exact .inl ⟨mem_cons_of_mem b hmem, hkey⟩
    rcases of_lookup_insert hm with ⟨rfl, rfl⟩ | hm
    · exact .inl ⟨mem_cons_self, rfl⟩
    · exact .inr hm

theorem mem_of_lookup_mapBy (h : (mapBy key l).lookup k = some a) : a ∈ l ∧ key a = k := by
  rcases lookup_foldl_insert h with h | h
  · exact h
  · rw [AList.lookup_empty] at h
    cases h

theorem lookup_foldl_insert_of_notMem (h : k ∉ l.map key) :
    (l.foldl (fun m a => m.insert (key a) a) m).lookup k = m.lookup k := by
  induction l generalizing m with
  | nil => rfl
  | cons b l ih =>
    rw [map_cons, mem_cons, not_or] at h
    rw [foldl_cons, ih h.2, AList.lookup_insert_ne h.1]

theorem lookup_mapBy_eq_none_iff : (mapBy key l).lookup k = none ↔ k ∉ l.map key := by
  constructor
  · intro hnone hmem
    -- from the key of an element on, there is always something under that key
    have hsome : ∀ m : Map α, k ∈ l.map key ∨ m.lookup k ≠ none →
        (l.foldl (fun m a => m.insert (key a) a) m).lookup k ≠ none := by
      clear hnone hmem
      induction l with
      | nil => exact fun m h => h.resolve_left not_mem_nil
      | cons b l ih =>
        intro m h
        refine ih _ ?_
        by_cases hk : k = key b
        · rw [hk, AList.lookup_insert]
          exact .inr nofun
        · rw [AList.lookup_insert_ne hk]
          exact h.imp_left fun hmem => (mem_cons.mp hmem).resolve_left hk
    exact hsome ∅ (.inl hmem) hnone
  · intro hk
    unfold mapBy
    rw [lookup_foldl_insert_of_notMem hk, AList.lookup_empty]

theorem lookup_mapBy (hnodup : (l.map key).Nodup) (ha : a ∈ l) :
    (mapBy key l).lookup (key a) = some a := by
  obtain ⟨before, after, rfl⟩ := append_of_mem ha
  rw [map_append, map_cons, nodup_append] at hnodup
  have hafter := (nodup_cons.mp hnodup.2.1).1
  unfold mapBy
  rw [foldl_append, foldl_cons, lookup_foldl_insert_of_notMem hafter, AList.lookup_insert]

theorem lookup_mapBy_of_perm {l' : List α} (hnodup : (l.map key).Nodup) (hperm : l'.Perm l)
    (k : String) : (mapBy key l').lookup k = (mapBy key l).lookup k := by
  cases h : (mapBy key l').lookup k with
  | none =>
    rw [lookup_mapBy_eq_none_iff, (hperm.map key).mem_iff] at h
    exact (lookup_mapBy_eq_none_iff.mpr h).symm
  | some a =>
    obtain ⟨hmem, rfl⟩ := mem_of_lookup_mapBy h
    exact (lookup_mapBy hnodup (hperm.mem_iff.mp hmem)).symm

end MapBy

variable {α : Type}

/-- A loop that rejects a key it has seen: when the first element is fine, the rest is accepted
with one more key seen exactly when all of it is, with no key twice. -/
theorem unseen_cons_iff {key : α → String} {P : α → Prop} {seen : List String} {a : α} {l : List α}
    (ha : P a) (hseen : key a ∉ seen) :
    ((∀ b ∈ l, P b ∧ key b ∉ key a :: seen) ∧ (l.map key).Nodup) ↔
      (∀ b ∈ a :: l, P b ∧ key b ∉ seen) ∧ ((a :: l).map key).Nodup := by
  rw [forall_mem_cons, map_cons, nodup_cons]
  simp only [mem_cons, not_or, mem_map, not_exists, not_and]
  constructor
  · rintro ⟨hall, hnodup⟩
    exact ⟨⟨⟨ha, hseen⟩, fun b hb => ⟨(hall b hb).1, (hall b hb).2.2⟩⟩,
      fun b hb => (hall b hb).2.1, hnodup⟩
  · rintro ⟨⟨-, hall⟩, hnew, hnodup⟩
    exact ⟨fun b hb => ⟨(hall b hb).1, hnew b hb, (hall b hb).2⟩, hnodup⟩

def sortStrings (names : List String) : List String := names.insertionSort (· ≤ ·)

theorem sortStrings_perm (names : List String) : (sortStrings names).Perm names :=
  perm_insertionSort _ names

variable {name : String} {names : List String}

@[simp] theorem mem_sortStrings :
    name ∈ sortStrings names ↔ name ∈ names :=
  (sortStrings_perm names).mem_iff

@[simp] theorem nodup_sortStrings :
    (sortStrings names).Nodup ↔ names.Nodup :=
  (sortStrings_perm names).nodup_iff

def appendMissing (names : List String) (name : String) : List String :=
  if name ∈ names then names else names ++ [name]

theorem mem_foldl_appendMissing {more : List String} :
    name ∈ more.foldl appendMissing names ↔ name ∈ names ∨ name ∈ more := by
  induction more generalizing names with
  | nil => simp
  | cons head more ih =>
    rw [foldl_cons, ih, mem_cons, ← or_assoc]
    refine or_congr_left ?_
    unfold appendMissing
    split_ifs with hmem
    · exact ⟨.inl, fun h => h.elim id fun h => h ▸ hmem⟩
    · rw [mem_append, mem_singleton]

def joinErrors (errs : List String) : String := "\n".intercalate errs

def quoteChar (c : Char) : String :=
  if c == '"' then "\\\""
  else if c == '\\' then "\\\\"
  else if c == '\n' then "\\n"
  else if c == '\r' then "\\r"
  else if c == '\t' then "\\t"
  else if c.toNat = 7 then "\\a"
  else if c.toNat = 8 then "\\b"
  else if c.toNat = 11 then "\\v"
  else if c.toNat = 12 then "\\f"
  else if c.toNat < 32 ∨ c.toNat = 127 then
    "\\x" ++ String.ofList [(c.toNat / 16).digitChar, (c.toNat % 16).digitChar]
  else c.toString

def quote (s : String) : String := "\"" ++ String.join (s.toList.map quoteChar) ++ "\""

/-- Split a list into consecutive pieces of `size` elements. The last piece may
be shorter. -/
def chunksAux {α : Type} (size : ℕ) : ℕ → List α → List (List α)
  | 0, _ => []
  | _ + 1, [] => []
  | fuel + 1, x :: xs =>
    (x :: xs).take size :: chunksAux size fuel ((x :: xs).drop size)

/-- The slices `l[start:min(start+size, len)]` of a loop `start += size`. -/
def chunks {α : Type} (size : ℕ) (l : List α) : List (List α) := chunksAux size l.length l

variable {size : ℕ}

theorem flatten_chunksAux (hsize : 0 < size) (fuel : ℕ) (l : List α) (hl : l.length ≤ fuel) :
    (chunksAux size fuel l).flatten = l := by
  induction fuel generalizing l with
  | zero => rw [length_eq_zero_iff.mp (Nat.le_zero.mp hl)]; rfl
  | succ fuel ih =>
    cases l with
    | nil => rfl
    | cons x xs =>
      have hdrop : ((x :: xs).drop size).length ≤ fuel := by
        rw [length_drop]; simp only [length_cons] at hl ⊢; omega
      rw [chunksAux, flatten_cons, ih _ hdrop, take_append_drop]

@[simp] theorem flatten_chunks (hsize : 0 < size) (l : List α) :
    (chunks size l).flatten = l :=
  flatten_chunksAux hsize l.length l le_rfl

end Go

import Mathlib.Algebra.Group.Nat.Defs
import Mathlib.Data.List.Induction
import Mathlib.Data.Nat.Basic

/-!
# Octet strings

Numbers as big-endian octets and as decimal texts, slices of octet strings, and the loop that takes
one item after the other off the front of a string (`scan`). The loop counts rounds and reports an
error of its own when they are used up, so that ending is something to prove (`scan_error`).
-/

namespace Wire

open List Nat

/-! ### Numbers -/

/-- The number `n` in `k` octets, the most significant one first. -/
def toOctets : ℕ → ℕ → List UInt8
  | 0, _ => []
  | k + 1, n => toOctets k (n / 256) ++ [UInt8.ofNat n]

def value (octets : List UInt8) : ℕ := octets.foldl (fun n octet => n * 256 + octet.toNat) 0

@[simp] theorem length_toOctets (k n : ℕ) : (toOctets k n).length = k := by
  induction k generalizing n with
  | zero => rfl
  | succ k ih => rw [toOctets, length_append, ih, length_singleton]

theorem value_append_singleton (octets : List UInt8) (octet : UInt8) :
    value (octets ++ [octet]) = value octets * 256 + octet.toNat := by
  unfold value
  rw [foldl_append]
  rfl

theorem value_lt (octets : List UInt8) : value octets < 256 ^ octets.length := by
  induction octets using reverseRecOn with
  | nil => decide
  | append_singleton octets octet ih =>
    have hoctet := octet.toNat_lt
    rw [value_append_singleton, length_append, length_singleton, pow_succ]
    omega

theorem toString_injective {a b : ℕ} (h : toString a = toString b) : a = b := by
  have hdigits : toDigits 10 a = toDigits 10 b := String.ofList_injective h
  have hvalue : ofDigitChars 10 (toDigits 10 a) 0 =
      ofDigitChars 10 (toDigits 10 b) 0 := by rw [hdigits]
  rw [ofDigitChars_ten_toDigits, ofDigitChars_ten_toDigits] at hvalue
  exact hvalue

theorem value_toOctets {k n : ℕ} (h : n < 256 ^ k) : value (toOctets k n) = n := by
  induction k generalizing n with
  | zero =>
    have hn : n = 0 := by simpa using h
    rw [hn]
    rfl
  | succ k ih =>
    have hdiv : n / 256 < 256 ^ k := by
      rw [Nat.pow_succ, Nat.mul_comm] at h
      exact Nat.div_lt_of_lt_mul h
    have hbyte : (UInt8.ofNat n).toNat = n % 256 := UInt8.toNat_ofNat'
    rw [toOctets, value_append_singleton, ih hdiv, hbyte]
    omega

theorem toOctets_value (octets : List UInt8) : toOctets octets.length (value octets) = octets := by
  induction octets using reverseRecOn with
  | nil => rfl
  | append_singleton octets octet ih =>
    have hoctet := octet.toNat_lt
    have hdiv : (value octets * 256 + octet.toNat) / 256 = value octets := by omega
    have hmod : UInt8.ofNat (value octets * 256 + octet.toNat) = octet := by
      apply UInt8.toNat_inj.mp
      rw [UInt8.toNat_ofNat']
      omega
    rw [length_append, length_singleton, value_append_singleton, toOctets, hdiv, hmod, ih]

section Slices

variable {α : Type}

/-- The elements from position `a` up to position `b`. -/
def slice (a b : ℕ) (l : List α) : List α := (l.take b).drop a

theorem length_slice (a b : ℕ) (l : List α) : (slice a b l).length = min b l.length - a := by
  unfold slice
  rw [length_drop, length_take]

variable {front l : List α} {k a : ℕ}

theorem slice_append_right {b : ℕ} (hk : front.length = k) (ha : k ≤ a) (hb : k ≤ b) :
    slice a b (front ++ l) = slice (a - k) (b - k) l := by
  subst hk
  unfold slice
  rw [take_append, take_of_length_le hb, drop_append, drop_of_length_le ha, nil_append]

theorem slice_append_left {b : ℕ} (h : b ≤ front.length) (l : List α) :
    slice a b (front ++ l) = slice a b front := by
  unfold slice
  rw [take_append_of_le_length h]

theorem drop_append_right (hk : front.length = k) (ha : k ≤ a) :
    (front ++ l).drop a = l.drop (a - k) := by
  subst hk
  rw [drop_append, drop_of_length_le ha, nil_append]

theorem slice_zero_append (l : List α) (hk : front.length = k) :
    slice 0 k (front ++ l) = front := by
  subst hk
  unfold slice
  rw [drop_zero, take_left]

theorem slice_zero_self (hk : l.length = k) : slice 0 k l = l := by
  have h := slice_zero_append [] hk
  rwa [append_nil] at h

theorem slice_append_drop {b : ℕ} (hab : a ≤ b) (l : List α) :
    slice a b l ++ l.drop b = l.drop a := by
  have hdrop : l.drop b = (l.drop a).drop (b - a) := by
    rw [drop_drop]
    congr 1
    omega
  rw [slice, drop_take, hdrop, take_append_drop]

theorem drop_of_slice {b : ℕ} {x : List α} (h : slice a b l = x) (hab : a ≤ b) :
    l.drop a = x ++ l.drop b := by
  rw [← h, slice_append_drop hab]

end Slices

/-! ### Taking items off the front -/

section

variable {σ ε β : Type} {body : σ → List β → Except ε (σ × List β)} {stuck : ε}

/-- The loop `while data`, for at most some number of rounds. The body is given the state and
the rest of the data, and returns both. -/
def scan (body : σ → List β → Except ε (σ × List β)) (stuck : ε) : ℕ → σ → List β → Except ε σ
  | _, s, [] => .ok s
  | 0, _, _ :: _ => .error stuck
  | n + 1, s, x :: data =>
    match body s (x :: data) with
    | .error e => .error e
    | .ok (s', rest) => scan body stuck n s' rest

def Shortens (body : σ → List β → Except ε (σ × List β)) : Prop :=
  ∀ s data s' rest, body s data = .ok (s', rest) → rest.length < data.length

@[simp] theorem scan_nil (n : ℕ) (s : σ) : scan body stuck n s [] = .ok s := by
  cases n <;> rfl

variable {n : ℕ} {s : σ} {data : List β}

theorem scan_step {s' : σ} {rest : List β} (hne : data ≠ []) (h : body s data = .ok (s', rest)) :
    scan body stuck (n + 1) s data = scan body stuck n s' rest := by
  cases data with
  | nil => exact absurd rfl hne
  | cons x data =>
    rw [scan, h]

theorem scan_fuel (hshort : Shortens body) {m : ℕ} (hn : data.length ≤ n) (hm : data.length ≤ m) :
    scan body stuck n s data = scan body stuck m s data := by
  induction n generalizing m s data with
  | zero =>
    have hnil : data = [] := length_eq_zero_iff.mp (le_zero.mp hn)
    rw [hnil, scan_nil, scan_nil]
  | succ n ih =>
    cases data with
    | nil => rw [scan_nil, scan_nil]
    | cons x data =>
      cases m with
      | zero => cases hm
      | succ m =>
        rw [scan, scan]
        cases hbody : body s (x :: data) with
        | error e => rfl
        | ok next =>
          have hlt := hshort s (x :: data) next.1 next.2 hbody
          exact ih (by omega) (by omega)

theorem scan_length_step (hshort : Shortens body) {s' : σ} {rest : List β} (hne : data ≠ [])
    (h : body s data = .ok (s', rest)) :
    scan body stuck data.length s data = scan body stuck rest.length s' rest := by
  have hlt := hshort s data s' rest h
  obtain ⟨n, hn⟩ : ∃ n, data.length = n + 1 := ⟨data.length - 1, by omega⟩
  rw [hn, scan_step hne h]
  exact scan_fuel hshort (by omega) le_rfl

theorem scan_length_eq_ok (hshort : Shortens body) {s' : σ} (hne : data ≠ [])
    (h : scan body stuck data.length s data = .ok s') :
    ∃ s₁ rest, body s data = .ok (s₁, rest) ∧ scan body stuck rest.length s₁ rest = .ok s' := by
  cases data with
  | nil => exact absurd rfl hne
  | cons x data =>
    cases hround : body s (x :: data) with
    | error e =>
      rw [length_cons, scan, hround] at h
      cases h
    | ok next =>
      rw [scan_length_step hshort (cons_ne_nil x data) hround] at h
      exact ⟨next.1, next.2, rfl, h⟩

theorem scan_error (hshort : Shortens body) {P : ε → Prop}
    (hbody : ∀ s data e, data ≠ [] → body s data = .error e → P e) (hn : data.length ≤ n) {e : ε}
    (h : scan body stuck n s data = .error e) : P e := by
  induction n generalizing s data with
  | zero =>
    have hnil : data = [] := length_eq_zero_iff.mp (le_zero.mp hn)
    rw [hnil, scan_nil] at h
    cases h
  | succ n ih =>
    cases data with
    | nil =>
      cases h
    | cons x data =>
      rw [scan] at h
      cases hround : body s (x :: data) with
      | error e' =>
        rw [hround] at h
        cases h
        exact hbody s (x :: data) e (cons_ne_nil x data) hround
      | ok next =>
        rw [hround] at h
        have hlt := hshort s (x :: data) next.1 next.2 hround
        exact ih (by omega) h

/-- **What a loop accepts**: a relation of the state before, the data and the state behind that
holds without data and that a round in front of the data keeps. -/
theorem scan_accepts {R : σ → List β → σ → Prop} (hnil : ∀ s, R s [] s)
    (hstep : ∀ s data s' rest s'', body s data = .ok (s', rest) → R s' rest s'' → R s data s'')
    {s' : σ} (h : scan body stuck n s data = .ok s') : R s data s' := by
  induction n generalizing s data with
  | zero =>
    cases data with
    | nil => exact Except.ok.inj h ▸ hnil s
    | cons x data => cases h
  | succ n ih =>
    cases data with
    | nil => exact Except.ok.inj h ▸ hnil s
    | cons x data =>
      rw [scan] at h
      cases hround : body s (x :: data) with
      | error e =>
        rw [hround] at h
        cases h
      | ok next =>
        rw [hround] at h
        exact hstep s (x :: data) next.1 next.2 s' hround (ih h)

end

end Wire

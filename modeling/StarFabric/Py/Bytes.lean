import StarFabric.Lib.Wire
import StarFabric.Lib.Fold

/-!
# Python: exceptions and byte strings

The parts of Python that the lab's BGP speaker uses. An operation that can raise an exception
returns it, by kind, so that "only `ValueError`" is something to prove. A loop that would not end
is an exception of its own here.
-/

namespace Py

open List Wire

inductive Error where
  | valueError (text : String)
  | indexError
  | keyError
  | structError
  | stopIteration
  | diverges
  deriving DecidableEq, Repr

def Error.IsValue (e : Error) : Prop := ∃ text, e = .valueError text

abbrev raise {α : Type} (text : String) : Except Error α := .error (.valueError text)

abbrev Bytes := List UInt8

abbrev Octets (n : ℕ) := { b : Bytes // b.length = n }

def item (data : Bytes) (i : ℕ) : Except Error UInt8 :=
  match data[i]? with
  | some octet => .ok octet
  | none => .error .indexError

def pair : Bytes → Except Error (UInt8 × UInt8)
  | [a, b] => .ok (a, b)
  | _ => raise "wrong number of values to unpack"

def zeros (n : ℕ) : Bytes := replicate n 0

def pack (k n : ℕ) : Except Error Bytes :=
  if n < 256 ^ k then .ok (toOctets k n) else .error .structError

def octet (n : ℕ) : Except Error UInt8 :=
  if n < 256 then .ok (UInt8.ofNat n) else raise "bytes must be in range(0, 256)"

def address (n : ℕ) (data : Bytes) : Except Error (Octets n) :=
  if h : data.length = n then .ok ⟨data, h⟩ else raise "wrong length of a packed address"

def whileData {σ : Type} (body : σ → Bytes → Except Error (σ × Bytes)) (s : σ) (data : Bytes) :
    Except Error σ :=
  scan body .diverges data.length s data

def next {α : Type} (p : α → Bool) (l : List α) : Except Error α :=
  match l.find? p with
  | some a => .ok a
  | none => .error .stopIteration

/-- `data[i:i+k] for i in range(0, len(data), k)`, for a length that `k` divides. -/
def chunks (k : ℕ) (data : Bytes) : List Bytes :=
  (range (data.length / k)).map fun i => slice (k * i) (k * i + k) data

@[simp] theorem length_zeros (n : ℕ) : (zeros n).length = n := length_replicate

def lastOctet (n : ℕ) (octet : UInt8) : Octets (n + 1) :=
  ⟨zeros n ++ [octet], by rw [length_append, length_zeros, length_singleton]⟩

/-! ### Which exceptions are raised -/

section

variable {α β : Type} {P Q : Error → Prop} {x : Except Error α}

/-- Every exception that is raised satisfies `P`. -/
def Raises (P : Error → Prop) (x : Except Error α) : Prop := ∀ e, x = .error e → P e

theorem Raises.mono (hx : Raises P x) (h : ∀ e, P e → Q e) : Raises Q x :=
  fun e he => h e (hx e he)

theorem raises_ok (a : α) : Raises P (.ok a : Except Error α) := nofun

theorem raises_raise (text : String) : Raises Error.IsValue (raise text : Except Error α) := by
  intro e he
  exact ⟨text, (Except.error.inj he).symm⟩

theorem Raises.bind {f : α → Except Error β} (hx : Raises P x)
    (hf : ∀ a, x = .ok a → Raises P (f a)) : Raises P (x >>= f) := by
  cases x with
  | error e => exact fun e' he' => hx e' (congrArg _ (Except.error.inj he'))
  | ok a => exact hf a rfl

theorem ite_raise_eq_ok {c : Prop} [Decidable c] {text : String} {a : α} :
    (if c then raise text else x) = .ok a ↔ ¬ c ∧ x = .ok a := by
  split_ifs with h
  · constructor
    · intro hx
      cases hx
    · intro hx
      exact hx.1 h
  · exact ⟨fun hx => ⟨h, hx⟩, fun hx => hx.2⟩

theorem raises_mapM {f : β → Except Error α} {l : List β} (h : ∀ b ∈ l, Raises P (f b)) :
    Raises P (l.mapM f) := by
  induction l with
  | nil => exact raises_ok _
  | cons b l ih =>
    obtain ⟨hb, hl⟩ := forall_mem_cons.mp h
    rw [mapM_cons]
    exact hb.bind fun _ _ => (ih hl).bind fun _ _ => raises_ok _

theorem Raises.ite {c : Prop} [Decidable c] {y : Except Error α} (hx : c → Raises P x)
    (hy : ¬ c → Raises P y) : Raises P (if c then x else y) := by
  split_ifs with h
  · exact hx h
  · exact hy h

variable {data : Bytes} {i : ℕ}

theorem raises_item (h : i < data.length) : Raises P (item data i) := by
  unfold item
  rw [getElem?_eq_getElem h]
  exact raises_ok _

theorem drop_of_item {octet : UInt8} (h : item data i = .ok octet) :
    data.drop i = octet :: data.drop (i + 1) := by
  unfold item at h
  cases hget : data[i]? with
  | none =>
    rw [hget] at h
    cases h
  | some found =>
    rw [hget] at h
    cases h
    obtain ⟨hi, rfl⟩ := List.getElem?_eq_some_iff.mp hget
    exact List.drop_eq_getElem_cons hi

theorem item_append_left {front : Bytes} (h : i < front.length) (data : Bytes) :
    item (front ++ data) i = item front i := by
  unfold item
  rw [getElem?_append_left h]

theorem item_append_right {front : Bytes} {k : ℕ} (hk : front.length = k) (hi : k ≤ i) :
    item (front ++ data) i = item data (i - k) := by
  subst hk
  unfold item
  rw [getElem?_append_right hi]

theorem raises_pair (data : Bytes) : Raises Error.IsValue (pair data) := by
  unfold pair
  split
  · exact raises_ok _
  · exact raises_raise _

theorem address_eq_ok {n : ℕ} {a : Octets n} : address n data = .ok a ↔ data = a.1 := by
  unfold address
  split_ifs with h
  · rw [Except.ok.injEq, Subtype.ext_iff]
  · constructor
    · intro ha
      cases ha
    · intro ha
      exact absurd (ha ▸ a.2) h

theorem raises_address (n : ℕ) (data : Bytes) : Raises Error.IsValue (address n data) := by
  unfold address
  split_ifs
  · exact raises_ok _
  · exact raises_raise _

theorem raises_pack {k n : ℕ} (h : n < 256 ^ k) : Raises P (pack k n) := by
  unfold pack
  rw [if_pos h]
  exact raises_ok _

theorem raises_whileData {σ : Type} {body : σ → Bytes → Except Error (σ × Bytes)}
    (hshort : Shortens body) (hbody : ∀ s data, Raises P (body s data)) (s : σ) (data : Bytes) :
    Raises P (whileData body s data) :=
  fun _ he => scan_error hshort (fun s data e _ h => hbody s data e h) le_rfl he

end

end Py

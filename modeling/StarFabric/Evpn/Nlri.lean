import StarFabric.Evpn.Codec

/-!
# Routes on the wire

What `records` accepts, and what it makes of it. `OnWire` says which octets are a list of routes
with which keys, without the loops of the decoder: each route is its type, its size and a value of
fixed fields, and routes of other types are passed over. `records` decodes exactly that
(`records_eq_ok_iff`). On all other octets it raises `ValueError` (`raises_records`).
-/

namespace StarFabric.Evpn

open ExceptFold List Nat Py Wire

/-! ### The heads of the loops -/

section

theorem takeItem_cons (truncated : String) (kind size : UInt8) (tail : Bytes) :
    takeItem truncated (kind :: size :: tail) =
      if tail.length < size.toNat then raise truncated
      else .ok ⟨kind, size, tail.take size.toNat, tail.drop size.toNat⟩ := by
  have hslice : slice 2 (2 + size.toNat) (kind :: size :: tail) = tail.take size.toNat := by
    unfold slice
    rw [add_comm, take_succ_cons, take_succ_cons]
    rfl
  have hdrop : (kind :: size :: tail).drop (2 + size.toNat) = tail.drop size.toNat := by
    rw [add_comm]
    rfl
  have hcond : (kind :: size :: tail).length < 2 + size.toNat ↔ tail.length < size.toNat := by
    rw [length_cons, length_cons]
    omega
  unfold takeItem
  show (if (kind :: size :: tail).length < 2 + size.toNat then raise truncated
    else (.ok ⟨kind, size, _, _⟩ : Except Error Item)) = _
  rw [hslice, hdrop]
  simp only [hcond]

variable {truncated : String} {data : Bytes} {head : Item}

theorem takeItem_eq_ok (h : takeItem truncated data = .ok head) :
    data = head.kind :: head.size :: (head.value ++ head.rest) ∧
      head.value.length = head.size.toNat := by
  match data with
  | [] => cases h
  | [_] => cases h
  | kind :: size :: tail =>
    rw [takeItem_cons] at h
    split_ifs at h with hlength
    cases h
    rw [take_append_drop, length_take]
    exact ⟨rfl, min_eq_left (not_lt.mp hlength)⟩

theorem takeItem_append (truncated : String) (kind : UInt8) {size : UInt8} {value : Bytes}
    (hsize : value.length = size.toNat) (rest : Bytes) :
    takeItem truncated (kind :: size :: (value ++ rest)) = .ok ⟨kind, size, value, rest⟩ := by
  have hlength : ¬ (value ++ rest).length < size.toNat := by
    rw [length_append]
    omega
  rw [takeItem_cons, if_neg hlength, ← hsize, take_left, drop_left]

theorem raises_takeItem (truncated : String) (data : Bytes) :
    Raises Error.IsValue (takeItem truncated data) := by
  match data with
  | [] => exact raises_raise _
  | [_] => exact raises_raise _
  | kind :: size :: tail =>
    rw [takeItem_cons]
    exact .ite (fun _ => raises_raise _) fun _ => raises_ok _

theorem takeItem_rest_lt (h : takeItem truncated data = .ok head) :
    head.rest.length < data.length := by
  have hlength := congrArg List.length (takeItem_eq_ok h).1
  rw [length_cons, length_cons, length_append] at hlength
  omega

end

section Loops

theorem rest_of_takeItem {σ : Type} {truncated : String} {data rest : Bytes} {s' : σ}
    {f : Item → Except Error (σ × Bytes)}
    (hf : ∀ head s' rest, f head = .ok (s', rest) → rest = head.rest)
    (h : (takeItem truncated data >>= f) = .ok (s', rest)) : rest.length < data.length := by
  obtain ⟨head, hhead, h⟩ := bind_eq_ok.mp h
  rw [hf head s' rest h]
  exact takeItem_rest_lt hhead

theorem shortens_prefixesBody : Shortens prefixesBody := by
  intro found data found' rest h
  refine rest_of_takeItem (fun head s' rest h => ?_) h
  dsimp only at h
  split_ifs at h
  · cases h
    rfl
  · obtain ⟨octet, -, h⟩ := bind_eq_ok.mp h
    split_ifs at h
    obtain ⟨host, -, h⟩ := bind_eq_ok.mp h
    cases h
    rfl

theorem raises_prefixes (data : Bytes) : Raises Error.IsValue (prefixes data) := by
  refine raises_whileData shortens_prefixesBody (fun found data => ?_) _ _
  refine (raises_takeItem _ _).bind fun head hhead => ?_
  have hlength := (takeItem_eq_ok hhead).2
  refine .ite (fun _ => raises_ok _) fun _ => .ite (fun _ => raises_raise _) fun hsize => ?_
  rw [not_or, not_not] at hsize
  have h34 : head.value.length = 34 := by
    rw [hlength, hsize.1]
    rfl
  refine (raises_item (by omega)).bind fun octet _ => ?_
  refine .ite (fun _ => raises_raise _) fun _ => ?_
  exact (raises_address 4 _).bind fun _ _ => raises_ok _

theorem raises_l2Record (kind size : UInt8) {v : Bytes} (hv : v.length = size.toNat) :
    Raises Error.IsValue (l2Record kind size v) := by
  refine .ite (fun _ => raises_raise _) fun _ => .ite (fun _ => ?_) fun _ => ?_
  · refine .ite (fun _ => raises_raise _) fun hsize => ?_
    rw [not_or, not_not] at hsize
    have h33 : v.length = 33 := by
      rw [hv, hsize.1]
      rfl
    refine (raises_item (by omega)).bind fun octet _ => .ite (fun _ => raises_raise _) fun _ => ?_
    exact (raises_address 6 _).bind fun _ _ => raises_ok _
  · refine .ite (fun _ => raises_raise _) fun _ => ?_
    exact (raises_address 16 _).bind fun _ _ => raises_ok _

theorem shortens_recordsBody : Shortens recordsBody := by
  intro found data found' rest h
  refine rest_of_takeItem (fun head s' rest h => ?_) h
  split_ifs at h
  · obtain ⟨keys, -, h⟩ := bind_eq_ok.mp h
    cases h
    rfl
  · obtain ⟨key, -, h⟩ := bind_eq_ok.mp h
    cases h
    rfl
  · cases h
    rfl

theorem raises_records (data : Bytes) : Raises Error.IsValue (records data) := by
  refine raises_whileData shortens_recordsBody (fun found data => ?_) _ _
  refine (raises_takeItem _ _).bind fun head hhead => ?_
  refine .ite (fun _ => ?_) fun _ => .ite (fun _ => ?_) fun _ => raises_ok _
  · exact (raises_prefixes _).bind fun _ _ => raises_ok _
  · exact (raises_l2Record _ _ (takeItem_eq_ok hhead).2).bind fun _ _ => raises_ok _

end Loops

/-! ### The grammar -/

/-- The value of a Type-5 route: a distinguisher, no segment and no tag, the host, no gateway
and the label. -/
def hostValue (rd : Octets 8) (host : Octets 4) : Bytes :=
  rd.1 ++ (zeros 14 ++ ([32] ++ (host.1 ++ (zeros 4 ++ [0x00, 0x00, 0x30]))))

/-- The value of a Type-2 route without an address of the network layer. -/
def macValue (routerId : Octets 4) (evi : ℕ) (mac : Octets 6) : Bytes :=
  [0x00, 0x01] ++ (routerId.1 ++ (toOctets 2 evi ++ (zeros 14 ++ ([48] ++ (mac.1 ++
    [0x00, 0x00, 0x00, 0x30])))))

def imetValue (routerId : Octets 4) (evi : ℕ) (originator : Octets 16) : Bytes :=
  [0x00, 0x01] ++ (routerId.1 ++ (toOctets 2 evi ++ ((zeros 4 ++ [0x80]) ++ originator.1)))

/-- The octets are a list of routes with these keys. -/
inductive OnWire : Bytes → List Key → Prop
  | nil : OnWire [] []
  | host {rest : Bytes} {keys : List Key} (rd : Octets 8) (host : Octets 4) :
    OnWire rest keys → OnWire (5 :: 34 :: (hostValue rd host ++ rest)) (.host host :: keys)
  | mac {rest : Bytes} {keys : List Key} (routerId : Octets 4) {evi : ℕ} (hevi : evi < 65536)
    (mac : Octets 6) :
    OnWire rest keys → OnWire (2 :: 33 :: (macValue routerId evi mac ++ rest)) (.mac evi mac :: keys)
  | imet {rest : Bytes} {keys : List Key} (routerId : Octets 4) {evi : ℕ} (hevi : evi < 65536)
    (originator : Octets 16) :
    OnWire rest keys →
      OnWire (3 :: 29 :: (imetValue routerId evi originator ++ rest)) (.imet evi originator :: keys)
  | other {rest : Bytes} {keys : List Key} {kind size : UInt8} {value : Bytes} (h2 : kind ≠ 2)
    (h3 : kind ≠ 3) (h5 : kind ≠ 5) (hsize : value.length = size.toNat) :
    OnWire rest keys → OnWire (kind :: size :: (value ++ rest)) keys

theorem OnWire.evi_lt {data : Bytes} {keys : List Key} (h : OnWire data keys) :
    ∀ key ∈ keys, key.evi < 65536 := by
  induction h with
  | nil => exact nofun
  | host rd host _ ih =>
    refine forall_mem_cons.mpr ⟨?_, ih⟩
    show 100 < 65536
    decide
  | mac routerId hevi mac _ ih => exact forall_mem_cons.mpr ⟨hevi, ih⟩
  | imet routerId hevi originator _ ih => exact forall_mem_cons.mpr ⟨hevi, ih⟩
  | other h2 h3 h5 hsize _ ih => exact ih

section Values

theorem length_hostValue (rd : Octets 8) (host : Octets 4) : (hostValue rd host).length = 34 := by
  unfold hostValue
  simp only [length_append, length_cons, length_nil, rd.2, host.2, length_zeros]

theorem length_macValue (routerId : Octets 4) (evi : ℕ) (mac : Octets 6) :
    (macValue routerId evi mac).length = 33 := by
  unfold macValue
  simp only [length_append, length_cons, length_nil, routerId.2, mac.2,
    length_zeros, length_toOctets]

theorem length_imetValue (routerId : Octets 4) (evi : ℕ) (originator : Octets 16) :
    (imetValue routerId evi originator).length = 29 := by
  unfold imetValue
  simp only [length_append, length_cons, length_nil, routerId.2, originator.2,
    length_zeros, length_toOctets]

variable {v : Bytes}

/-- Segment and tag, the length of an address and the address itself, behind a distinguisher. -/
theorem drop_of_fields {n : ℕ} {a : Octets n} {bits : UInt8} (hsegment : slice 8 22 v = zeros 14)
    (hbits : item v 22 = .ok bits) (ha : address n (slice 23 (23 + n) v) = .ok a) :
    v.drop 8 = zeros 14 ++ ([bits] ++ (a.1 ++ v.drop (23 + n))) := by
  rw [drop_of_slice hsegment (by decide), drop_of_item hbits,
    drop_of_slice (address_eq_ok.mp ha) (by omega)]
  rfl

theorem fields_of_eq {rd : Octets 8} {n : ℕ} {a : Octets n} {bits : UInt8} {tail : Bytes}
    (hv : v = rd.1 ++ (zeros 14 ++ ([bits] ++ (a.1 ++ tail)))) :
    slice 8 22 v = zeros 14 ∧ item v 22 = .ok bits ∧ slice 23 (23 + n) v = a.1 ∧
      v.drop (23 + n) = tail := by
  subst hv
  obtain ⟨a, rfl⟩ := a
  have hlast : 23 + a.length - 8 - 14 - 1 = a.length := by omega
  refine ⟨?_, ?_, ?_, ?_⟩
  · rw [slice_append_right rd.2 (by decide) (by decide)]
    exact slice_zero_append _ rfl
  · rw [item_append_right rd.2 (by decide), item_append_right rfl (by decide)]
    rfl
  · rw [slice_append_right rd.2 (by decide) (by omega),
      slice_append_right (length_zeros 14) (by decide) (by omega),
      slice_append_right (k := 1) rfl (by decide) (by omega), hlast]
    exact slice_zero_append _ rfl
  · rw [drop_append_right rd.2 (by omega), drop_append_right (length_zeros 14) (by omega),
      drop_append_right (k := 1) rfl (by omega), hlast, drop_left]

theorem eq_hostValue {host : Octets 4} (hlength : v.length = 34)
    (hsegment : slice 8 22 v = zeros 14) (hbits : item v 22 = .ok 32)
    (hhost : address 4 (slice 23 27 v) = .ok host) (hgateway : slice 27 31 v = zeros 4)
    (hlabel : v.drop 31 = [0x00, 0x00, 0x30]) : ∃ rd, v = hostValue rd host := by
  have hrd : (slice 0 8 v).length = 8 := by
    rw [length_slice, hlength]
    rfl
  refine ⟨⟨slice 0 8 v, hrd⟩, ?_⟩
  calc v = slice 0 8 v ++ v.drop 8 := (slice_append_drop (zero_le 8) v).symm
    _ = slice 0 8 v ++ (zeros 14 ++ ([32] ++ (host.1 ++ v.drop 27))) := by
      rw [drop_of_fields hsegment hbits hhost]
    _ = hostValue ⟨slice 0 8 v, hrd⟩ host := by
      rw [drop_of_slice hgateway (by decide), hlabel]
      rfl

theorem eq_distinguisher (hlength : 8 ≤ v.length) (htype : v.take 2 = [0x00, 0x01]) :
    ∃ routerId : Octets 4, ∃ evi < 65536, Wire.value (slice 6 8 v) = evi ∧
      v = [0x00, 0x01] ++ (routerId.1 ++ (toOctets 2 evi ++ v.drop 8)) := by
  have hrouter : (slice 2 6 v).length = 4 := by
    rw [length_slice]
    omega
  have hevi : (slice 6 8 v).length = 2 := by
    rw [length_slice]
    omega
  have hlt : Wire.value (slice 6 8 v) < 65536 := by
    have h := value_lt (slice 6 8 v)
    rw [hevi] at h
    exact h
  have hoctets : toOctets 2 (Wire.value (slice 6 8 v)) = slice 6 8 v := by
    have h := toOctets_value (slice 6 8 v)
    rwa [hevi] at h
  refine ⟨⟨slice 2 6 v, hrouter⟩, _, hlt, rfl, ?_⟩
  calc v = [0x00, 0x01] ++ v.drop 2 := by rw [← htype, take_append_drop]
    _ = [0x00, 0x01] ++ (slice 2 6 v ++ v.drop 6) := by
      rw [slice_append_drop (show 2 ≤ 6 by decide)]
    _ = [0x00, 0x01] ++ (slice 2 6 v ++ (toOctets 2 (Wire.value (slice 6 8 v)) ++ v.drop 8)) := by
      rw [hoctets, slice_append_drop (show 6 ≤ 8 by decide)]

theorem eq_macValue {mac : Octets 6} (hlength : v.length = 33) (htype : v.take 2 = [0x00, 0x01])
    (hsegment : slice 8 22 v = zeros 14) (hbits : item v 22 = .ok 48)
    (hmac : address 6 (slice 23 29 v) = .ok mac) (hlabel : v.drop 29 = [0x00, 0x00, 0x00, 0x30]) :
    ∃ routerId, ∃ evi < 65536, Wire.value (slice 6 8 v) = evi ∧ v = macValue routerId evi mac := by
  obtain ⟨routerId, evi, hevi, hvalue, hv⟩ := eq_distinguisher (by omega) htype
  refine ⟨routerId, evi, hevi, hvalue, ?_⟩
  rw [drop_of_fields hsegment hbits hmac, hlabel] at hv
  exact hv

theorem eq_imetValue {originator : Octets 16} (hlength : v.length = 29)
    (htype : v.take 2 = [0x00, 0x01]) (hzero : slice 8 13 v = zeros 4 ++ [0x80])
    (horiginator : address 16 (slice 13 29 v) = .ok originator) :
    ∃ routerId, ∃ evi < 65536, Wire.value (slice 6 8 v) = evi ∧
      v = imetValue routerId evi originator := by
  obtain ⟨routerId, evi, hevi, hvalue, hv⟩ := eq_distinguisher (by omega) htype
  refine ⟨routerId, evi, hevi, hvalue, ?_⟩
  have hend : v.drop 29 = [] := drop_of_length_le (le_of_eq hlength)
  rw [drop_of_slice hzero (by decide), drop_of_slice (address_eq_ok.mp horiginator) (by decide),
    hend, append_nil] at hv
  exact hv

end Values

/-! ### Every list of routes is decoded -/

section

theorem prefixesBody_host (found : List Key) (rd : Octets 8) (host : Octets 4) (rest : Bytes) :
    prefixesBody found (5 :: 34 :: (hostValue rd host ++ rest)) =
      .ok (found ++ [.host host], rest) := by
  obtain ⟨hsegment, hbits, hhost, hdrop⟩ := fields_of_eq (v := hostValue rd host) rfl
  have hgateway : slice 27 31 (hostValue rd host) = zeros 4 := by
    rw [slice, drop_take, hdrop]
    rfl
  have hlabel : (hostValue rd host).drop 31 = [0x00, 0x00, 0x30] := by
    rw [← drop_drop (i := 4), hdrop]
    rfl
  refine bind_eq_ok.mpr ⟨_, takeItem_append _ 5 (length_hostValue rd host) rest, ?_⟩
  refine (if_neg (by simp)).trans (ite_raise_eq_ok.mpr ⟨by simp [hsegment], ?_⟩)
  refine bind_eq_ok.mpr ⟨32, hbits, ite_raise_eq_ok.mpr ⟨by simp [hgateway, hlabel], ?_⟩⟩
  exact bind_eq_ok.mpr ⟨host, address_eq_ok.mpr hhost, rfl⟩

theorem prefixes_host (rd : Octets 8) (host : Octets 4) :
    prefixes (5 :: 34 :: hostValue rd host) = .ok [.host host] := by
  have hround := prefixesBody_host [] rd host []
  rw [append_nil] at hround
  refine (scan_length_step shortens_prefixesBody (cons_ne_nil _ _) hround).trans ?_
  rfl

variable {evi : ℕ}

theorem distinguisher_checks (routerId : Octets 4) (hevi : evi < 65536) (tail : Bytes) :
    (∃ rd : Octets 8, [0x00, 0x01] ++ (routerId.1 ++ (toOctets 2 evi ++ tail)) = rd.1 ++ tail) ∧
      Wire.value (slice 6 8 ([0x00, 0x01] ++ (routerId.1 ++ (toOctets 2 evi ++ tail)))) = evi := by
  constructor
  · refine ⟨⟨[0x00, 0x01] ++ (routerId.1 ++ toOctets 2 evi), ?_⟩, ?_⟩
    · simp only [length_append, routerId.2, length_toOctets, length_cons, length_nil]
    · simp only [append_assoc]
  · rw [slice_append_right (k := 2) rfl (by decide) (by decide),
      slice_append_right routerId.2 (by decide) (by decide)]
    have hslice := slice_zero_append tail (length_toOctets 2 evi)
    exact (congrArg Wire.value hslice).trans (value_toOctets hevi)

theorem l2Record_mac (routerId : Octets 4) (hevi : evi < 65536) (mac : Octets 6) :
    l2Record 2 33 (macValue routerId evi mac) = .ok (.mac evi mac) := by
  obtain ⟨⟨rd, hrd⟩, hvalue⟩ := distinguisher_checks routerId hevi
    (zeros 14 ++ ([48] ++ (mac.1 ++ [0x00, 0x00, 0x00, 0x30])))
  obtain ⟨hsegment, hbits, hmac, hlabel⟩ := fields_of_eq (v := macValue routerId evi mac) hrd
  refine ite_raise_eq_ok.mpr ⟨?_, (if_pos rfl).trans ?_⟩
  · rw [not_or, not_lt, not_not, length_macValue]
    exact ⟨by decide, rfl⟩
  refine ite_raise_eq_ok.mpr ⟨by simp [hsegment], ?_⟩
  refine bind_eq_ok.mpr ⟨48, hbits, ite_raise_eq_ok.mpr ⟨by simp [hlabel], ?_⟩⟩
  refine bind_eq_ok.mpr ⟨mac, address_eq_ok.mpr hmac, ?_⟩
  exact congrArg (fun n => Except.ok (Key.mac n mac)) hvalue

theorem l2Record_imet (routerId : Octets 4) (hevi : evi < 65536) (originator : Octets 16) :
    l2Record 3 29 (imetValue routerId evi originator) = .ok (.imet evi originator) := by
  obtain ⟨⟨rd, hrd⟩, hvalue⟩ := distinguisher_checks routerId hevi
    ((zeros 4 ++ [0x80]) ++ originator.1)
  have hzero : slice 8 13 (imetValue routerId evi originator) = zeros 4 ++ [0x80] := by
    rw [imetValue, hrd, slice_append_right rd.2 (by decide) (by decide)]
    exact slice_zero_append _ rfl
  have horiginator : slice 13 29 (imetValue routerId evi originator) = originator.1 := by
    rw [imetValue, hrd, slice_append_right rd.2 (by decide) (by decide),
      slice_append_right (k := 5) rfl (by decide) (by decide)]
    exact slice_zero_self originator.2
  refine ite_raise_eq_ok.mpr ⟨?_, (if_neg (by decide)).trans ?_⟩
  · rw [not_or, not_lt, not_not, length_imetValue]
    exact ⟨by decide, rfl⟩
  refine ite_raise_eq_ok.mpr ⟨by simp [hzero], ?_⟩
  refine bind_eq_ok.mpr ⟨originator, address_eq_ok.mpr horiginator, ?_⟩
  exact congrArg (fun n => Except.ok (Key.imet n originator)) hvalue

theorem recordsBody_append (found : List Key) {kind size : UInt8} {value : Bytes}
    (hsize : value.length = size.toNat) (rest : Bytes) :
    recordsBody found (kind :: size :: (value ++ rest)) =
      if kind = 5 then do return (found ++ (← prefixes (kind :: size :: value)), rest)
      else if kind = 2 ∨ kind = 3 then do return (found ++ [← l2Record kind size value], rest)
      else .ok (found, rest) := by
  unfold recordsBody
  rw [takeItem_append _ kind hsize rest]
  rfl

theorem OnWire.decoded {data : Bytes} {keys : List Key} (h : OnWire data keys) (found : List Key) :
    whileData recordsBody found data = .ok (found ++ keys) := by
  -- a route that a round finds is followed by the others
  have hfound : ∀ {data rest : Bytes} {keys : List Key} {key : Key} (found : List Key),
      data ≠ [] → recordsBody found data = .ok (found ++ [key], rest) →
      whileData recordsBody (found ++ [key]) rest = .ok (found ++ [key] ++ keys) →
      whileData recordsBody found data = .ok (found ++ key :: keys) := by
    intro data rest keys key found hne hbody hrest
    rw [← append_cons] at hrest
    exact (scan_length_step shortens_recordsBody hne hbody).trans hrest
  induction h generalizing found with
  | nil =>
    rw [append_nil]
    rfl
  | host rd host _ ih =>
    refine hfound found (cons_ne_nil _ _) ?_ (ih _)
    rw [recordsBody_append found (length_hostValue rd host), if_pos rfl, prefixes_host]
    rfl
  | mac routerId hevi mac _ ih =>
    refine hfound found (cons_ne_nil _ _) ?_ (ih _)
    rw [recordsBody_append found (length_macValue routerId _ mac), if_neg (by decide),
      if_pos (by decide), l2Record_mac routerId hevi]
    rfl
  | imet routerId hevi originator _ ih =>
    refine hfound found (cons_ne_nil _ _) ?_ (ih _)
    rw [recordsBody_append found (length_imetValue routerId _ originator), if_neg (by decide),
      if_pos (by decide), l2Record_imet routerId hevi]
    rfl
  | @other rest keys kind size value h2 h3 h5 hsize _ ih =>
    have hbody : recordsBody found (kind :: size :: (value ++ rest)) = .ok (found, rest) := by
      rw [recordsBody_append found hsize, if_neg h5, if_neg (not_or.mpr ⟨h2, h3⟩)]
    exact (scan_length_step shortens_recordsBody (cons_ne_nil _ _) hbody).trans (ih found)

end

/-! ### Nothing else is decoded -/

section

variable {size : UInt8} {data : Bytes}

theorem prefixesBody_eq_ok {found found' : List Key} {rest : Bytes}
    (h : prefixesBody found (5 :: size :: data) = .ok (found', rest)) :
    ∃ rd host, size = 34 ∧ data = hostValue rd host ++ rest ∧ found' = found ++ [.host host] := by
  obtain ⟨head, hhead, h⟩ := bind_eq_ok.mp h
  obtain ⟨hdata, hlength⟩ := takeItem_eq_ok hhead
  obtain ⟨hkind, hdata⟩ := cons.inj hdata
  obtain ⟨hsize, hdata⟩ := cons.inj hdata
  rw [if_neg (by rw [← hkind]; decide)] at h
  obtain ⟨hchecks, h⟩ := ite_raise_eq_ok.mp h
  obtain ⟨octet, hoctet, h⟩ := bind_eq_ok.mp h
  obtain ⟨hchecks', h⟩ := ite_raise_eq_ok.mp h
  obtain ⟨host, hhost, h⟩ := bind_eq_ok.mp h
  simp only [not_or, not_not] at hchecks hchecks'
  cases h
  have h34 : head.value.length = 34 := by
    rw [hlength, hchecks.1]
    rfl
  rw [hchecks'.1] at hoctet
  obtain ⟨rd, hvalue⟩ := eq_hostValue h34 hchecks.2 hoctet hhost hchecks'.2.1 hchecks'.2.2
  exact ⟨rd, host, hsize.trans hchecks.1, hvalue ▸ hdata, rfl⟩

variable {keys : List Key}

theorem prefixes_eq_ok {value : Bytes} (hsize : value.length = size.toNat)
    (h : prefixes (5 :: size :: value) = .ok keys) :
    ∃ rd host, size = 34 ∧ value = hostValue rd host ∧ keys = [.host host] := by
  obtain ⟨found, rest, hbody, h⟩ := scan_length_eq_ok shortens_prefixesBody (cons_ne_nil _ _) h
  obtain ⟨rd, host, rfl, hvalue, rfl⟩ := prefixesBody_eq_ok hbody
  -- the value is as long as one route, so nothing is behind it
  have hrest : rest = [] := by
    have hlength := congrArg List.length hvalue
    rw [hsize, length_append, length_hostValue] at hlength
    exact length_eq_zero_iff.mp (add_left_cancel hlength.symm)
  subst hrest
  rw [append_nil] at hvalue
  exact ⟨rd, host, rfl, hvalue, (Except.ok.inj h).symm⟩

theorem l2Record_eq_ok {kind : UInt8} {v : Bytes} {key : Key} (hkind : kind = 2 ∨ kind = 3)
    (hsize : v.length = size.toNat) (h : l2Record kind size v = .ok key) {rest : Bytes}
    (hrest : OnWire rest keys) :
    OnWire (kind :: size :: (v ++ rest)) (key :: keys) := by
  obtain ⟨htype, h⟩ := ite_raise_eq_ok.mp h
  rw [not_or, not_not] at htype
  obtain rfl | rfl := hkind
  · rw [if_pos rfl] at h
    obtain ⟨hchecks, h⟩ := ite_raise_eq_ok.mp h
    obtain ⟨octet, hoctet, h⟩ := bind_eq_ok.mp h
    obtain ⟨hchecks', h⟩ := ite_raise_eq_ok.mp h
    obtain ⟨mac, hmac, h⟩ := bind_eq_ok.mp h
    cases h
    simp only [not_or, not_not] at hchecks hchecks'
    obtain ⟨rfl, hsegment⟩ := hchecks
    obtain ⟨rfl, hlabel⟩ := hchecks'
    obtain ⟨routerId, evi, hevi, hvalue, rfl⟩ :=
      eq_macValue hsize htype.2 hsegment hoctet hmac hlabel
    rw [hvalue]
    exact .mac routerId hevi mac hrest
  · rw [if_neg (by decide)] at h
    obtain ⟨hchecks, h⟩ := ite_raise_eq_ok.mp h
    obtain ⟨originator, horiginator, h⟩ := bind_eq_ok.mp h
    cases h
    simp only [not_or, not_not] at hchecks
    obtain ⟨rfl, hzero⟩ := hchecks
    obtain ⟨routerId, evi, hevi, hvalue, rfl⟩ := eq_imetValue hsize htype.2 hzero horiginator
    rw [hvalue]
    exact .imet routerId hevi originator hrest

theorem onWire_of_records (h : records data = .ok keys) : OnWire data keys := by
  have haccepts : ∃ more, keys = [] ++ more ∧ OnWire data more := by
    refine scan_accepts (R := fun found data keys => ∃ more, keys = found ++ more ∧ OnWire data more)
      (fun found => ⟨[], (append_nil found).symm, .nil⟩) ?_ h
    rintro found data found' rest _ hbody ⟨more, rfl, hmore⟩
    obtain ⟨⟨kind, size, value, rest'⟩, hhead, _⟩ := bind_eq_ok.mp hbody
    obtain ⟨rfl, hsize⟩ := takeItem_eq_ok hhead
    rw [recordsBody_append found hsize] at hbody
    split_ifs at hbody with h5 hl2
    · obtain ⟨found₁, hprefixes, hbody⟩ := bind_eq_ok.mp hbody
      cases hbody
      subst h5
      obtain ⟨rd, host, rfl, rfl, rfl⟩ := prefixes_eq_ok hsize hprefixes
      exact ⟨.host host :: more, append_assoc found _ more, .host rd host hmore⟩
    · obtain ⟨key, hkey, hbody⟩ := bind_eq_ok.mp hbody
      cases hbody
      exact ⟨key :: more, append_assoc found _ more, l2Record_eq_ok hl2 hsize hkey hmore⟩
    · cases hbody
      exact ⟨more, rfl, .other (fun h => hl2 (.inl h)) (fun h => hl2 (.inr h)) h5 hsize hmore⟩
  obtain ⟨more, rfl, hmore⟩ := haccepts
  exact hmore

theorem records_eq_ok_iff : records data = .ok keys ↔ OnWire data keys :=
  ⟨onWire_of_records, fun h => h.decoded []⟩

end

end StarFabric.Evpn

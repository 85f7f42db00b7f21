import StarFabric.Evpn.Nlri
import StarFabric.Evpn.PathAttributes

/-!
# Decoding arbitrary input

`read_update` on any byte string. Every loop takes something off its data in every round
(`Shortens`), so it ends. Every access to an octet is behind a check of the length, and
every `StopIteration` is caught, so that only `ValueError` is raised (`Raises`). What is returned
accounts for all routes of the message (`readUpdate_accounts`).
-/

namespace StarFabric.Evpn

open Py Wire ExceptFold List

/-! ### The service TLVs -/

section

theorem tlvsBody_cons (found : List (UInt8 × Bytes)) (kind high low : UInt8) (tail : Bytes) :
    tlvsBody found (kind :: high :: low :: tail) =
      if tail.length < Wire.value [high, low] then raise "truncated TLV value"
      else .ok (found ++ [(kind, tail.take (Wire.value [high, low]))],
        tail.drop (Wire.value [high, low])) := by
  have htake : (kind :: high :: low :: tail).take 3 = [kind, high, low] := rfl
  unfold tlvsBody
  rw [if_neg (by simp), htake]
  dsimp only
  generalize Wire.value [high, low] = n
  have hcond : (kind :: high :: low :: tail).length < n + 3 ↔ tail.length < n := by
    simp only [length_cons]
    omega
  have hslice : slice 3 (n + 3) (kind :: high :: low :: tail) = tail.take n := rfl
  have hdrop : (kind :: high :: low :: tail).drop (n + 3) = tail.drop n := rfl
  simp only [hcond, hslice, hdrop]

theorem shortens_tlvsBody : Shortens tlvsBody := by
  intro found data found' rest h
  match data with
  | [] | [_] | [_, _] => cases h
  | kind :: high :: low :: tail =>
    rw [tlvsBody_cons] at h
    split_ifs at h
    cases h
    simp only [length_drop, length_cons]
    omega

theorem raises_tlvs (data : Bytes) : Raises Error.IsValue (tlvs data) := by
  refine raises_whileData shortens_tlvsBody (fun found data => ?_) _ _
  match data with
  | [] | [_] | [_, _] => exact raises_raise _
  | kind :: high :: low :: tail =>
    rw [tlvsBody_cons]
    exact .ite (fun _ => raises_raise _) fun _ => raises_ok _

end

/-! ### The service of an update -/

section

variable {attributes : Attributes} {announced : List Key}

theorem caught_of_isValue {e : Error} (h : e.IsValue) : caught e = true := by
  obtain ⟨text, rfl⟩ := h
  rfl

theorem raises_next {α : Type} (p : α → Bool) (l : List α) :
    Raises (fun e => caught e = true) (next p l) := by
  unfold Py.next
  cases l.find? p with
  | none =>
    intro e he
    cases he
    rfl
  | some a => exact raises_ok a

theorem raises_routeTarget {P : Error → Prop} {evi : ℕ} (h : evi < 65536) :
    Raises P (routeTarget evi) := by
  refine (raises_pack (by decide)).bind fun _ _ => ?_
  exact (raises_pack (Nat.lt_trans h (by decide))).bind fun _ _ => raises_ok _

theorem raises_readService (hne : announced ≠ []) (hevi : ∀ key ∈ announced, key.evi < 65536) :
    Raises (fun e => caught e = true) (readService attributes announced) := by
  have hraise : ∀ {α : Type} (text : String),
      Raises (fun e => caught e = true) (raise text : Except Error α) :=
    fun text => (raises_raise text).mono fun _ => caught_of_isValue
  have htlvs : ∀ data, Raises (fun e => caught e = true) (tlvs data) :=
    fun data => (raises_tlvs data).mono fun _ => caught_of_isValue
  refine (raises_pack (by decide)).bind fun _ _ => .ite (fun _ => hraise _) fun _ => ?_
  refine .ite (fun _ => hraise _) fun _ => ?_
  cases announced with
  | nil => exact absurd rfl hne
  | cons first others =>
    refine .ite (fun _ => hraise _) fun _ => ?_
    refine (raises_routeTarget (hevi first mem_cons_self)).bind fun _ _ => ?_
    refine .ite (fun _ => hraise _) fun _ => (htlvs _).bind fun services _ => ?_
    refine (raises_next _ _).bind fun service _ => .ite (fun _ => hraise _) fun _ => ?_
    refine (htlvs _).bind fun information _ => (raises_next _ _).bind fun info _ => ?_
    refine .ite (fun _ => hraise _) fun _ => ?_
    refine ((raises_address 16 _).mono fun _ => caught_of_isValue).bind fun sid _ => ?_
    exact .ite (fun _ => hraise _) fun _ => raises_ok _

def Key.behavior : Key → Behavior
  | .host _ => .endDX4
  | .mac _ _ | .imet _ _ => .endDX2

/-- What `read_update` has checked about the service when it announces routes. -/
structure Service.Checked (service : Service) (announced : List Key) : Prop where
  evi : ∀ key ∈ announced, key.evi = service.evi
  behavior : ∀ key ∈ announced, key.behavior = if service.l2 then .endDX2 else .endDX4
  routeType : ∀ key ∈ announced, ∀ key' ∈ announced, key.routeType = key'.routeType
  sid : badSid service.sid = false

theorem readService_eq_ok {service : Service}
    (h : readService attributes announced = .ok service) : service.Checked announced := by
  obtain ⟨-, h⟩ := ite_raise_eq_ok.mp h
  obtain ⟨-, h⟩ := ite_raise_eq_ok.mp h
  cases announced with
  | nil => cases h
  | cons first others =>
    obtain ⟨hmixed, h⟩ := ite_raise_eq_ok.mp h
    obtain ⟨_, -, h⟩ := bind_eq_ok.mp h
    obtain ⟨-, h⟩ := ite_raise_eq_ok.mp h
    obtain ⟨services, -, h⟩ := bind_eq_ok.mp h
    obtain ⟨found, -, h⟩ := bind_eq_ok.mp h
    obtain ⟨-, h⟩ := ite_raise_eq_ok.mp h
    obtain ⟨information, -, h⟩ := bind_eq_ok.mp h
    obtain ⟨info, -, h⟩ := bind_eq_ok.mp h
    obtain ⟨-, h⟩ := ite_raise_eq_ok.mp h
    obtain ⟨sid, -, h⟩ := bind_eq_ok.mp h
    obtain ⟨hsid, h⟩ := ite_raise_eq_ok.mp h
    cases h
    -- all records have the EVI and the type of the first
    have hsame : ∀ key ∈ first :: others, key.evi = first.evi ∧ key.routeType = first.routeType := by
      intro key hkey
      have hkey' := any_eq_false.mp (eq_false_of_ne_true hmixed) key hkey
      simpa [not_or] using hkey'
    refine ⟨fun key hkey => (hsame key hkey).1, fun key hkey => ?_, fun key hkey key' hkey' => ?_, ?_⟩
    · have htype := (hsame key hkey).2
      rw [← htype]
      cases key <;> rfl
    · exact (hsame key hkey).2.trans (hsame key' hkey').2.symm
    · exact eq_false_of_ne_true hsid

theorem raises_badImet (hne : announced ≠ []) (nexthop : Octets 16)
    (htype : ∀ key ∈ announced, ∀ key' ∈ announced, key.routeType = key'.routeType) :
    Raises Error.IsValue (badImet attributes announced nexthop) := by
  cases announced with
  | nil => exact absurd rfl hne
  | cons first others =>
    refine .ite (fun _ => raises_ok _) fun hthree => .ite (fun _ => raises_ok _) fun _ => ?_
    -- every record has an originator, as the first has
    have horiginators : ∀ keys : List Key, (∀ key ∈ keys, key.routeType = 3) →
        ∃ originators, keys.mapM Key.originator = .ok originators := by
      intro keys
      induction keys with
      | nil => exact fun _ => ⟨[], rfl⟩
      | cons key keys ih =>
        intro hkeys
        obtain ⟨hkey, hkeys⟩ := forall_mem_cons.mp hkeys
        obtain ⟨originators, ho⟩ := ih hkeys
        cases key with
        | host address => exact absurd (show 5 = 3 from hkey) (by decide)
        | mac evi mac => exact absurd (show 2 = 3 from hkey) (by decide)
        | imet evi originator =>
          refine ⟨originator :: originators, ?_⟩
          rw [mapM_cons, ho]
          rfl
    obtain ⟨originators, ho⟩ := horiginators (first :: others) fun key hkey =>
      (htype key hkey first mem_cons_self).trans (not_not.mp hthree)
    rw [ho]
    exact raises_ok _

theorem originator_of_badImet {nexthop : Octets 16}
    (htype : ∀ key ∈ announced, ∀ key' ∈ announced, key.routeType = key'.routeType)
    (h : badImet attributes announced nexthop = .ok false) {evi : ℕ} {originator : Octets 16}
    (hmem : .imet evi originator ∈ announced) : originator = nexthop := by
  unfold badImet at h
  cases announced with
  | nil => cases h
  | cons first others =>
    have hthree : first.routeType = 3 := htype first mem_cons_self _ hmem
    dsimp only at h
    rw [if_neg (not_not.mpr hthree)] at h
    split_ifs at h
    · cases h
    obtain ⟨originators, horiginators, h⟩ := bind_eq_ok.mp h
    obtain ⟨found, hfound, heq⟩ := (mapM_ok horiginators).2 _ hmem
    cases heq
    have hany := any_eq_false.mp (Except.ok.inj h) originator hfound
    simpa using hany

end

/-! ### Updates -/

/-- The keys of the routes that an attribute has behind a head of `n` octets. -/
def KeysOf (attributes : Attributes) (kind : UInt8) (n : ℕ) (keys : List Key) : Prop :=
  match attributes.lookup kind with
  | none => keys = []
  | some octets => OnWire (octets.drop n) keys

def AllOrNone (reach : List Key) (announced : List Route) (treated : List Key) : Prop :=
  (announced.map Route.key = reach ∧ treated = []) ∨ (announced = [] ∧ treated = reach)

/-- The route is for its own EVI, with the behaviour of its type and a proper SID, and an
inclusive-multicast route originates from its next hop. -/
structure Route.Proper (route : Route) : Prop where
  routeTarget : route.routeTarget = route.key.evi
  behavior : route.behavior = route.key.behavior
  sid : badSid route.sid = false
  originator : ∀ evi originator, route.key = .imet evi originator → originator = route.nexthop

section Update

variable {attributes : Attributes}

theorem raises_readReach (attributes : Attributes) (reach : Bytes) :
    Raises Error.IsValue (readReach attributes reach) := by
  refine .ite (fun _ => raises_raise _) fun _ => (raises_records _).bind fun keys hkeys => ?_
  refine .ite (fun _ => raises_ok _) fun hnil => ?_
  cases hservice : readService attributes keys with
  | error e =>
    have hcaught := raises_readService hnil (onWire_of_records hkeys).evi_lt e hservice
    dsimp only
    rw [if_pos hcaught]
    exact raises_ok _
  | ok service =>
    refine (raises_address 16 _).bind fun nexthop _ => ?_
    refine (raises_badImet hnil nexthop (readService_eq_ok hservice).routeType).bind fun bad _ => ?_
    exact .ite (fun _ => raises_ok _) fun _ => raises_ok _

theorem readReach_eq_ok {reach : Bytes} {announced : List Route} {treated : List Key}
    (h : readReach attributes reach = .ok (announced, treated)) :
    ∃ keys, records (reach.drop 21) = .ok keys ∧ AllOrNone keys announced treated ∧
      ∀ route ∈ announced, route.Proper := by
  obtain ⟨-, h⟩ := ite_raise_eq_ok.mp h
  obtain ⟨keys, hkeys, h⟩ := bind_eq_ok.mp h
  refine ⟨keys, hkeys, ?_⟩
  have hwithdrawn : AllOrNone keys [] keys ∧ ∀ route ∈ ([] : List Route), route.Proper :=
    ⟨.inr ⟨rfl, rfl⟩, nofun⟩
  split_ifs at h with hnil
  · cases h
    rw [hnil] at hwithdrawn ⊢
    exact hwithdrawn
  cases hservice : readService attributes keys with
  | error e =>
    rw [hservice] at h
    dsimp only at h
    split_ifs at h
    cases h
    exact hwithdrawn
  | ok service =>
    rw [hservice] at h
    obtain ⟨nexthop, -, h⟩ := bind_eq_ok.mp h
    obtain ⟨bad, hbad, h⟩ := bind_eq_ok.mp h
    cases bad with
    | true =>
      cases h
      exact hwithdrawn
    | false =>
      have hchecked := readService_eq_ok hservice
      cases h
      refine ⟨.inl ⟨?_, rfl⟩, ?_⟩
      · rw [map_map]
        exact map_id keys
      · intro route hroute
        obtain ⟨key, hkey, rfl⟩ := mem_map.mp hroute
        refine ⟨(hchecked.evi key hkey).symm, (hchecked.behavior key hkey).symm, hchecked.sid, ?_⟩
        rintro evi originator rfl
        exact originator_of_badImet hchecked.routeType hbad hkey

theorem raises_readUnreach (attributes : Attributes) :
    Raises Error.IsValue (readUnreach attributes) := by
  unfold readUnreach
  cases attributes.lookup 15 with
  | none => exact raises_ok _
  | some unreach => exact .ite (fun _ => raises_raise _) fun _ => raises_records _

theorem raises_readUpdate (data : Bytes) : Raises Error.IsValue (readUpdate data) := by
  refine (raises_readAttributes data).bind fun attributes _ => ?_
  refine (raises_readUnreach attributes).bind fun withdrawn _ => ?_
  cases attributes.lookup 14 with
  | none => exact raises_ok _
  | some reach => exact (raises_readReach attributes reach).bind fun _ _ => raises_ok _

theorem readUnreach_eq_ok {keys : List Key} (h : readUnreach attributes = .ok keys) :
    KeysOf attributes 15 3 keys := by
  unfold readUnreach at h
  unfold KeysOf
  cases hlookup : attributes.lookup 15 with
  | none =>
    rw [hlookup] at h
    exact (Except.ok.inj h).symm
  | some octets =>
    rw [hlookup] at h
    exact onWire_of_records (ite_raise_eq_ok.mp h).2

theorem readUpdate_eq_ok {data : Bytes} {announced : List Route} {withdrawn : List Key}
    (h : readUpdate data = .ok (announced, withdrawn)) :
    ∃ attributes reach unreach treated, readAttributes data = .ok attributes ∧
      KeysOf attributes 14 21 reach ∧ KeysOf attributes 15 3 unreach ∧
      withdrawn = unreach ++ treated ∧ AllOrNone reach announced treated ∧
      ∀ route ∈ announced, route.Proper := by
  obtain ⟨attributes, hattributes, h⟩ := bind_eq_ok.mp h
  obtain ⟨unreach, hunreach, h⟩ := bind_eq_ok.mp h
  have hkeys := readUnreach_eq_ok hunreach
  cases hlookup : attributes.lookup 14 with
  | none =>
    rw [hlookup] at h
    have hreach : KeysOf attributes 14 21 [] := by
      unfold KeysOf
      rw [hlookup]
    obtain ⟨hannounced, hwithdrawn⟩ := Prod.mk.inj (Except.ok.inj h)
    subst hannounced hwithdrawn
    exact ⟨attributes, [], unreach, [], hattributes, hreach, hkeys, (append_nil _).symm,
      .inl ⟨rfl, rfl⟩, nofun⟩
  | some octets =>
    rw [hlookup] at h
    obtain ⟨⟨routes, treated⟩, hroutes, h⟩ := bind_eq_ok.mp h
    obtain ⟨reach, hrecords, hall, hproper⟩ := readReach_eq_ok hroutes
    have hreach : KeysOf attributes 14 21 reach := by
      unfold KeysOf
      rw [hlookup]
      exact onWire_of_records hrecords
    cases h
    exact ⟨attributes, reach, unreach, treated, hattributes, hreach, hkeys, rfl, hall, hproper⟩

/-- **Decoding is safe on every byte string.** Either `ValueError` is raised, or the octets are an
UPDATE with some path attributes, the routes of MP_REACH are all announced or all treated as
withdrawn, the routes of MP_UNREACH are withdrawn, and the announced routes are proper. -/
theorem readUpdate_accounts (data : Bytes) :
    (∃ text, readUpdate data = .error (.valueError text)) ∨
      ∃ announced unreach treated, readUpdate data = .ok (announced, unreach ++ treated) ∧
        ∃ body attributes reach, data = [0x00, 0x00] ++ (toOctets 2 body.length ++ body) ∧
          Encodes body attributes ∧ (attributes.map Prod.fst).Nodup ∧
          KeysOf attributes 14 21 reach ∧ KeysOf attributes 15 3 unreach ∧
          AllOrNone reach announced treated ∧ ∀ route ∈ announced, route.Proper := by
  cases hread : readUpdate data with
  | error e =>
    obtain ⟨text, rfl⟩ := raises_readUpdate data e hread
    exact .inl ⟨text, rfl⟩
  | ok result =>
    obtain ⟨announced, withdrawn⟩ := result
    obtain ⟨attributes, reach, unreach, treated, hattributes, hreach, hunreach, rfl, hall, hproper⟩ :=
      readUpdate_eq_ok hread
    obtain ⟨body, -, hdata, hencodes, hnodup⟩ := readAttributes_eq_ok_iff.mp hattributes
    exact .inr ⟨announced, unreach, treated, rfl, body, attributes, reach, hdata, hencodes, hnodup,
      hreach, hunreach, hall, hproper⟩

end Update

end StarFabric.Evpn

import StarFabric.Evpn.Decoding
import StarFabric.Evpn.Encoding

/-!
# Encoding and decoding

A message that `update` or `l2_update` builds is decoded to what it was built from. Each layer has
its own lemma. The octets of the NLRI are in the grammar `OnWire`, those of the attributes in
the grammar `Encodes`, and a TLV in a TLV is read by the loop over TLVs. What is left for an
update is to follow `read_update` through its checks (`readReach_announces`).
-/

namespace StarFabric.Evpn

open ExceptFold List Nat Py Wire

/-! ### Attributes and TLVs -/

section

theorem exists_pair {n : ℕ} (h : n < 65536) :
    ∃ high low, toOctets 2 n = [high, low] ∧ Wire.value [high, low] = n :=
  ⟨UInt8.ofNat (n / 256), UInt8.ofNat n, rfl, value_toOctets (k := 2) h⟩

theorem encodes_attrOctets (kind : UInt8) {value rest : Bytes} {flags : UInt8}
    {attributes : Attributes} (hflags : (flags ||| 0x10) &&& 0x10 ≠ 0) (h : value.length < 65536)
    (hrest : Encodes rest attributes) :
    Encodes (attrOctets kind value flags ++ rest) ((kind, value) :: attributes) := by
  obtain ⟨high, low, hoctets, hvalue⟩ := exists_pair h
  unfold attrOctets
  rw [hoctets, append_assoc, append_assoc]
  exact .extended hflags hvalue.symm hrest

theorem tlvs_tlvOctets (kind : UInt8) {value : Bytes} (h : value.length < 65536) :
    tlvs (tlvOctets kind value) = .ok [(kind, value)] := by
  obtain ⟨high, low, hoctets, hvalue⟩ := exists_pair h
  have hbody : tlvsBody [] (kind :: high :: low :: value) = .ok ([(kind, value)], []) := by
    rw [tlvsBody_cons, hvalue, if_neg (lt_irrefl _), take_length, drop_length]
    rfl
  unfold tlvs tlvOctets
  rw [hoctets]
  exact (scan_length_step shortens_tlvsBody (cons_ne_nil _ _) hbody).trans rfl

theorem encodes_attrsOctets {attributes : List (UInt8 × UInt8 × Bytes)}
    (h : ∀ a ∈ attributes, (a.1 ||| 0x10) &&& 0x10 ≠ 0 ∧ a.2.2.length < 65536) :
    Encodes (attrsOctets attributes) (attributes.map Prod.snd) := by
  induction attributes with
  | nil => exact .nil
  | cons a attributes ih =>
    obtain ⟨ha, h⟩ := forall_mem_cons.mp h
    exact encodes_attrOctets a.2.1 ha.1 ha.2 (ih h)

theorem value_infoOctets {behavior : ℕ} (h : behavior < 65536) (sid : Octets 16) :
    Wire.value (slice 18 20 (infoOctets behavior sid)) = behavior := by
  unfold infoOctets
  rw [slice_append_right (k := 1) rfl (by decide) (by decide),
    slice_append_right sid.2 (by decide) (by decide),
    slice_append_right (k := 1) rfl (by decide) (by decide)]
  have hslice := slice_zero_append [0x00] (length_toOctets 2 behavior)
  exact (congrArg Wire.value hslice).trans (value_toOctets h)

theorem sid_infoOctets (behavior : ℕ) (sid : Octets 16) :
    slice 1 17 (infoOctets behavior sid) = sid.1 := by
  exact slice_zero_append _ sid.2

theorem next_singleton {α : Type} {p : α → Bool} {a : α} (h : p a = true) : next p [a] = .ok a := by
  unfold Py.next
  rw [find?_cons_of_pos h]

end

/-! ### Messages -/

/-- A message was built, of at most 4096 octets and with its length in its head, and its body is
decoded to some announced routes and withdrawn keys. -/
def Carries (built : Except Error Bytes) (decoded : List Route × List Key) : Prop :=
  ∃ octets, built = .ok octets ∧ octets.length ≤ 4096 ∧
    Wire.value (slice 16 18 octets) = octets.length ∧ readUpdate (octets.drop 19) = .ok decoded

section Messages

theorem readUpdate_of_attributes {data : Bytes} {attributes : Attributes}
    (h : readAttributes data = .ok attributes) :
    readUpdate data = do
      let withdrawn ← readUnreach attributes
      match attributes.lookup 14 with
      | none => return ([], withdrawn)
      | some reach =>
        let (announced, treated) ← readReach attributes reach
        return (announced, withdrawn ++ treated) := by
  unfold readUpdate
  rw [h]
  rfl

theorem drop_updateOctets (body : Bytes) :
    (updateOctets body).drop 19 = [0x00, 0x00] ++ (toOctets 2 body.length ++ body) := by
  rfl

theorem length_updateOctets (body : Bytes) : (updateOctets body).length = body.length + 23 := by
  simp only [updateOctets, length_append, length_toOctets, length_cons, length_nil,
    length_replicate]
  omega

variable {body : Bytes}

theorem value_updateOctets (h : body.length ≤ 4073) :
    Wire.value (slice 16 18 (updateOctets body)) = (updateOctets body).length := by
  have hslice : slice 16 18 (updateOctets body) = toOctets 2 (body.length + 23) := by
    exact slice_zero_append _ (length_toOctets _ _)
  exact value_toOctets (k := 2) (by omega)

variable {decoded : List Route × List Key}

theorem readUpdate_updateOctets {attributes : List (UInt8 × UInt8 × Bytes)}
    (hlength : (attrsOctets attributes).length ≤ 4073)
    (h : ∀ a ∈ attributes, (a.1 ||| 0x10) &&& 0x10 ≠ 0 ∧ a.2.2.length < 65536)
    (hnodup : ((attributes.map Prod.snd).map Prod.fst).Nodup)
    (hread : ∀ data, readAttributes data = .ok (attributes.map Prod.snd) →
      readUpdate data = .ok decoded) :
    readUpdate ((updateOctets (attrsOctets attributes)).drop 19) = .ok decoded := by
  apply hread
  exact readAttributes_eq_ok_iff.mpr ⟨_, by omega, rfl, encodes_attrsOctets h, hnodup⟩

theorem carries_of_readUpdate {built : Except Error Bytes}
    (hbuilt : built = .ok (updateOctets body)) (hlength : body.length ≤ 4073)
    (hread : readUpdate ((updateOctets body).drop 19) = .ok decoded) : Carries built decoded := by
  refine ⟨_, hbuilt, ?_, value_updateOctets hlength, hread⟩
  rw [length_updateOctets]
  omega

end Messages

/-! ### Announcements and withdrawals -/

section

variable {key : Key}

theorem readUpdate_withdrawOctets {route : Bytes} (hroute : OnWire route [key])
    (hshort : route.length ≤ 36) :
    readUpdate ((withdrawOctets route).drop 19) = .ok ([], [key]) := by
  have hlength := length_withdrawn hshort
  refine readUpdate_updateOctets (length_attrs_withdrawn hshort) ?_ (nodup_singleton _) ?_
  · exact forall_mem_singleton.mpr
      ⟨show ((0x80 : UInt8) ||| 0x10) &&& 0x10 ≠ 0 by decide,
        show (af ++ route).length < 65536 by omega⟩
  · intro data hdata
    have hunreach : readUnreach [(15, af ++ route)] = .ok [key] := by
      show (if (af ++ route).take 3 ≠ af then raise "wrong MP_UNREACH family"
        else records ((af ++ route).drop 3)) = .ok [key]
      exact ite_raise_eq_ok.mpr ⟨not_not.mpr rfl, records_eq_ok_iff.mpr hroute⟩
    rw [readUpdate_of_attributes hdata]
    show (readUnreach [(15, af ++ route)] >>= fun withdrawn => _) = _
    rw [hunreach]
    rfl

/-- What `read_update` asks of the attributes of a single route. -/
structure Announces (attributes : Attributes) (communities : Bytes) (sid : Octets 16) (key : Key) :
    Prop where
  origin : attributes.lookup 1 = some [0x00]
  path : attributes.lookup 2 = some []
  preference : attributes.lookup 5 = some (toOctets 4 100)
  communities : attributes.lookup 16 = some communities
  service : ∃ service behavior, attributes.lookup 40 = some (serviceOctets service behavior sid) ∧
    match key with
    | .host _ => service = 5 ∧ behavior = dx4
    | _ => service = 6 ∧ behavior = dx2

variable {attributes : Attributes} {sid : Octets 16}

theorem readService_announces {communities target : Bytes}
    (h : Announces attributes communities sid key) (hlength : communities.length % 8 = 0)
    (htarget : routeTarget key.evi = .ok target) (hmem : target ∈ chunks 8 communities)
    (hsid : badSid sid = false) :
    readService attributes [key] =
      .ok ⟨chunks 8 communities, key.routeType == 2 || key.routeType == 3, key.evi, sid⟩ := by
  obtain ⟨service, behavior, hservice, hkey⟩ := h.service
  refine bind_eq_ok.mpr ⟨_, pack_eq (by decide), ite_raise_eq_ok.mpr ⟨?_, ?_⟩⟩
  · rw [h.origin, h.path, h.preference]
    simp
  rw [h.communities]
  refine ite_raise_eq_ok.mpr ⟨not_not.mpr hlength, ?_⟩
  refine ite_raise_eq_ok.mpr ⟨by simp, ?_⟩
  refine bind_eq_ok.mpr ⟨target, htarget, ite_raise_eq_ok.mpr ⟨?_, ?_⟩⟩
  · simpa using hmem
  rw [hservice]
  dsimp only
  -- the kind of the service and its behaviour are those of the type of the route
  have hkind : (if key.routeType == 2 || key.routeType == 3 then 6 else 5) = service ∧
      (if key.routeType == 2 || key.routeType == 3 then dx2 else dx4) = behavior := by
    cases key <;> exact ⟨hkey.1.symm, hkey.2.symm⟩
  have hbehavior : behavior < 65536 := by
    rw [← hkind.2]
    split_ifs <;> decide
  have hservice' : ([0x00] ++ tlvOctets 1 (infoOctets behavior sid)).length < 65536 := by
    rw [length_append, length_tlvOctets, length_infoOctets]
    decide
  have hinfo : (infoOctets behavior sid).length < 65536 := by
    rw [length_infoOctets]
    decide
  rw [hkind.1, hkind.2]
  refine bind_eq_ok.mpr ⟨_, tlvs_tlvOctets service hservice', ?_⟩
  refine bind_eq_ok.mpr ⟨_, next_singleton (beq_self_eq_true service), ?_⟩
  refine ite_raise_eq_ok.mpr ⟨cons_ne_nil _ _, ?_⟩
  refine bind_eq_ok.mpr ⟨_, tlvs_tlvOctets 1 hinfo, ?_⟩
  refine bind_eq_ok.mpr ⟨_, next_singleton rfl, ite_raise_eq_ok.mpr ⟨?_, ?_⟩⟩
  · rw [not_or, not_not, not_not]
    exact ⟨length_infoOctets behavior sid, value_infoOctets hbehavior sid⟩
  refine bind_eq_ok.mpr ⟨sid, address_eq_ok.mpr (sid_infoOctets behavior sid), ?_⟩
  exact ite_raise_eq_ok.mpr ⟨by rw [hsid]; decide, rfl⟩

theorem readReach_announces {communities target route : Bytes} (nexthop : Octets 16)
    (h : Announces attributes communities sid key) (hlength : communities.length % 8 = 0)
    (htarget : routeTarget key.evi = .ok target) (hmem : target ∈ chunks 8 communities)
    (hsid : badSid sid = false) (hroute : OnWire route [key])
    (himet : badImet attributes [key] nexthop = .ok false) :
    readReach attributes (reachOctets nexthop route) =
      .ok ([⟨key, sid, nexthop, key.behavior, key.evi, mobilitySequence (chunks 8 communities)⟩],
        []) := by
  have hdrop : (reachOctets nexthop route).drop 21 = route := by
    unfold reachOctets
    rw [drop_append_right (k := 4) rfl (by decide), drop_append_right nexthop.2 (by decide)]
    rfl
  have hnexthop : slice 4 20 (reachOctets nexthop route) = nexthop.1 := by
    exact slice_zero_append _ nexthop.2
  have hbehavior : (if key.routeType == 2 || key.routeType == 3 then Behavior.endDX2
      else Behavior.endDX4) = key.behavior := by
    cases key <;> rfl
  refine ite_raise_eq_ok.mpr ⟨?_, ?_⟩
  · rw [not_or, not_lt, not_not, length_reachOctets]
    exact ⟨by omega, rfl⟩
  rw [hdrop]
  refine bind_eq_ok.mpr ⟨[key], records_eq_ok_iff.mpr hroute, ?_⟩
  rw [if_neg (cons_ne_nil _ _), readService_announces h hlength htarget hmem hsid]
  refine bind_eq_ok.mpr ⟨nexthop, address_eq_ok.mpr hnexthop, ?_⟩
  refine bind_eq_ok.mpr ⟨false, himet, ?_⟩
  rw [if_neg (by decide), ← hbehavior]
  rfl

theorem badImet_tunnels {nexthop : Octets 16}
    (hlookup : attributes.lookup 22 = ((tunnels key nexthop).map Prod.snd).lookup 22)
    (horiginator : ∀ evi originator, key = .imet evi originator → originator = nexthop) :
    badImet attributes [key] nexthop = .ok false := by
  cases key with
  | host _ | mac _ _ => rfl
  | imet evi originator =>
    obtain rfl := horiginator evi originator rfl
    have hthree : ¬ (Key.imet evi originator).routeType ≠ 3 := not_not.mpr rfl
    have htunnel : ¬ attributes.lookup 22 ≠ some ([0x00, 0x06, 0x00, 0x00, 0x30] ++ originator.1) :=
      not_not.mpr hlookup
    unfold badImet
    dsimp only
    rw [if_neg hthree, if_neg htunnel]
    show Except.ok ([originator].any fun o => o != originator) = Except.ok false
    simp

theorem readUpdate_announceOctets {communities target route : Bytes} (key : Key) {service : UInt8}
    {behavior : ℕ} (nexthop : Octets 16)
    (hservice : match key with | .host _ => service = 5 ∧ behavior = dx4 | _ => service = 6 ∧
      behavior = dx2)
    (hlength : communities.length = 8 ∨ communities.length = 16)
    (htarget : routeTarget key.evi = .ok target) (hmem : target ∈ chunks 8 communities)
    (hsid : badSid sid = false) (hroute : OnWire route [key]) (hshort : route.length ≤ 36)
    (horiginator : ∀ evi originator, key = .imet evi originator → originator = nexthop) :
    readUpdate ((announceOctets nexthop sid communities service behavior key route).drop 19) =
      .ok ([⟨key, sid, nexthop, key.behavior, key.evi, mobilitySequence (chunks 8 communities)⟩],
        []) := by
  refine readUpdate_updateOctets (length_announced _ _ _ _ _ (by omega) hshort) ?_ ?_
    fun data hdata => ?_
  · refine forall_mem_append.mpr ⟨?_, ?_⟩
    · simp only [announced, forall_mem_cons]
      refine ⟨⟨by decide, by decide⟩, ⟨by decide, by decide⟩, ⟨by decide, by decide⟩,
        ⟨by decide, by omega⟩, ⟨by decide, ?_⟩, ⟨by decide, ?_⟩,
        forall_mem_nil _⟩
      · rw [length_serviceOctets]
        decide
      · rw [length_reachOctets]
        omega
    · cases key with
      | host _ | mac _ _ => exact forall_mem_nil _
      | imet evi originator =>
        refine forall_mem_singleton.mpr ⟨show ((0xc0 : UInt8) ||| 0x10) &&& 0x10 ≠ 0 by decide, ?_⟩
        rw [length_append, nexthop.2]
        decide
  · have hsix : ([1, 2, 5, 16, 40, 14] : List UInt8).Nodup := by decide
    have hseven : ([1, 2, 5, 16, 40, 14, 22] : List UInt8).Nodup := by decide
    cases key with
    | host _ | mac _ _ => exact hsix
    | imet _ _ => exact hseven
  · have hannounces : Announces ((announced communities service behavior sid nexthop route ++
        tunnels key nexthop).map Prod.snd) communities sid key :=
      ⟨rfl, rfl, rfl, rfl, service, behavior, rfl, hservice⟩
    have hunreach : readUnreach ((announced communities service behavior sid nexthop route ++
        tunnels key nexthop).map Prod.snd) = .ok [] := by
      cases key <;> rfl
    have hreach := readReach_announces nexthop hannounces (by omega) htarget hmem hsid hroute
      (badImet_tunnels rfl horiginator)
    rw [readUpdate_of_attributes hdata, hunreach]
    show (readReach _ (reachOctets nexthop route) >>= _) = _
    rw [hreach]
    rfl

end

section Communities

theorem chunks_append {a : Bytes} (ha : a.length = 8) (b : Bytes) :
    chunks 8 (a ++ b) = a :: chunks 8 b := by
  have hcount : (a ++ b).length / 8 = b.length / 8 + 1 := by
    rw [length_append, ha]
    omega
  unfold chunks
  rw [hcount, range_succ_eq_map, map_cons, map_map]
  congr 1
  · exact slice_zero_append b ha
  · refine map_congr_left fun i _ => ?_
    show slice (8 * (i + 1)) (8 * (i + 1) + 8) (a ++ b) = slice (8 * i) (8 * i + 8) b
    rw [slice_append_right ha (by omega) (by omega)]
    congr 1

theorem chunks_target (evi : ℕ) : chunks 8 (targetOctets evi) = [targetOctets evi] := by
  have h := chunks_append (a := targetOctets evi) rfl []
  rwa [append_nil] at h

theorem chunks_target_mobility (evi sequence : ℕ) :
    chunks 8 (targetOctets evi ++ mobilityOctets sequence) =
      [targetOctets evi, mobilityOctets sequence] := by
  have h := chunks_append (a := mobilityOctets sequence) rfl []
  rw [append_nil] at h
  rw [chunks_append (a := targetOctets evi) rfl, h]
  rfl

theorem mobilitySequence_target (evi : ℕ) : mobilitySequence [targetOctets evi] = 0 := rfl

theorem mobilitySequence_mobility (evi : ℕ) {sequence : ℕ} (h : sequence < 2 ^ 32) :
    mobilitySequence [targetOctets evi, mobilityOctets sequence] = sequence := by
  show max 0 (Wire.value (toOctets 4 sequence)) = sequence
  rw [value_toOctets (k := 4) h, Nat.zero_max]

end Communities

section Updates

variable (routerId : Octets 4)

theorem onWire_hostOctets (host : Octets 4) : OnWire (hostOctets routerId host) [.host host] := by
  have h := OnWire.host (distinguisher routerId) host .nil
  rwa [append_nil] at h

variable {evi : ℕ}

theorem onWire_macOctets (hevi : evi < 65536) (mac : Octets 6) :
    OnWire (macOctets routerId evi mac) [.mac evi mac] := by
  have h := OnWire.mac routerId hevi mac .nil
  rwa [append_nil] at h

theorem onWire_imetOctets (hevi : evi < 65536) (originator : Octets 16) :
    OnWire (imetOctets routerId evi originator) [.imet evi originator] := by
  have h := OnWire.imet routerId hevi originator .nil
  rwa [append_nil] at h

theorem carries_withdraw {built : Except Error Bytes} {route : Bytes} {key : Key}
    (hbuilt : built = .ok (withdrawOctets route)) (hroute : OnWire route [key])
    (hshort : route.length ≤ 36) : Carries built ([], [key]) :=
  carries_of_readUpdate hbuilt (length_attrs_withdrawn hshort)
    (readUpdate_withdrawOctets hroute hshort)

variable {sid : Octets 16}

theorem readUpdate_mac {sequence : ℕ} (hevi : evi < 65536) (hsequence : sequence < 2 ^ 32)
    (mac : Octets 6) (nexthop : Octets 16) (hsid : badSid sid = false) :
    readUpdate ((announceOctets nexthop sid (targetOctets evi ++ mobilityOctets sequence) 6 dx2
        (.mac evi mac) (macOctets routerId evi mac)).drop 19) =
      .ok ([⟨.mac evi mac, sid, nexthop, .endDX2, evi, sequence⟩], []) := by
  have h := readUpdate_announceOctets (.mac evi mac) nexthop ⟨rfl, rfl⟩ (.inr rfl)
    (routeTarget_eq hevi)
    (by rw [chunks_target_mobility evi sequence]; exact mem_cons_self) hsid
    (onWire_macOctets routerId hevi mac) (length_macOctets routerId evi mac) nofun
  rw [chunks_target_mobility, mobilitySequence_mobility evi hsequence] at h
  exact h

theorem readUpdate_host (host : Octets 4) (nexthop : Octets 16) (hsid : badSid sid = false) :
    readUpdate ((announceOctets nexthop sid (targetOctets 100) 5 dx4 (.host host)
        (hostOctets routerId host)).drop 19) =
      .ok ([⟨.host host, sid, nexthop, .endDX4, 100, 0⟩], []) := by
  have h := readUpdate_announceOctets (.host host) nexthop ⟨rfl, rfl⟩ (.inl rfl)
    (routeTarget_eq (show (Key.host host).evi < 65536 from (by decide : 100 < 65536)))
    (by rw [chunks_target]; exact mem_singleton_self _) hsid
    (onWire_hostOctets routerId host) (length_hostOctets routerId host) nofun
  rw [chunks_target, mobilitySequence_target] at h
  exact h

theorem readUpdate_imet (hevi : evi < 65536) (nexthop : Octets 16) (hsid : badSid sid = false) :
    readUpdate ((announceOctets nexthop sid (targetOctets evi) 6 dx2 (.imet evi nexthop)
        (imetOctets routerId evi nexthop)).drop 19) =
      .ok ([⟨.imet evi nexthop, sid, nexthop, .endDX2, evi, 0⟩], []) := by
  have h := readUpdate_announceOctets (.imet evi nexthop) nexthop ⟨rfl, rfl⟩ (.inl rfl)
    (routeTarget_eq hevi) (by rw [chunks_target evi]; exact mem_singleton_self _) hsid
    (onWire_imetOctets routerId hevi nexthop) (length_imetOctets routerId evi nexthop)
    (fun _ _ h => (Key.imet.inj h).2.symm)
  rw [chunks_target, mobilitySequence_target] at h
  exact h

theorem carries_update (host : Octets 4) (nexthop : Octets 16) (hsid : badSid sid = false) :
    Carries (update routerId host 32 nexthop sid false)
        ([⟨.host host, sid, nexthop, .endDX4, 100, 0⟩], []) ∧
      Carries (update routerId host 32 nexthop sid true) ([], [.host host]) := by
  have hlength := length_hostOctets routerId host
  obtain ⟨hannounce, hwithdraw⟩ := update_eq routerId nexthop sid host
  exact ⟨carries_of_readUpdate hannounce
      (length_announced _ _ _ _ _ (show 8 ≤ 16 by decide) hlength)
      (readUpdate_host routerId host nexthop hsid),
    carries_withdraw hwithdraw (onWire_hostOctets routerId host) hlength⟩

theorem carries_mac {sequence : ℕ} (hevi : evi < 65536) (hsequence : sequence < 2 ^ 32)
    (mac : Octets 6) (nexthop : Octets 16) (hsid : badSid sid = false) :
    Carries (l2Update routerId evi nexthop sid (some mac) sequence false)
        ([⟨.mac evi mac, sid, nexthop, .endDX2, evi, sequence⟩], []) ∧
      Carries (l2Update routerId evi nexthop sid (some mac) sequence true) ([], [.mac evi mac]) := by
  have hlength := length_macOctets routerId evi mac
  exact ⟨carries_of_readUpdate (l2Update_mac_eq routerId nexthop sid hevi hsequence mac)
      (length_announced _ _ _ _ _ (le_refl 16) hlength)
      (readUpdate_mac routerId hevi hsequence mac nexthop hsid),
    carries_withdraw (l2Update_mac_withdraw_eq routerId nexthop sid hevi sequence mac)
      (onWire_macOctets routerId hevi mac) hlength⟩

theorem carries_imet (hevi : evi < 65536) (sequence : ℕ) (nexthop : Octets 16)
    (hsid : badSid sid = false) :
    Carries (l2Update routerId evi nexthop sid none sequence false)
        ([⟨.imet evi nexthop, sid, nexthop, .endDX2, evi, 0⟩], []) ∧
      Carries (l2Update routerId evi nexthop sid none sequence true) ([], [.imet evi nexthop]) := by
  have hlength := length_imetOctets routerId evi nexthop
  obtain ⟨hannounce, hwithdraw⟩ := l2Update_imet_eq routerId nexthop sid hevi sequence
  exact ⟨carries_of_readUpdate hannounce
      (length_announced _ _ _ _ _ (show 8 ≤ 16 by decide) hlength)
      (readUpdate_imet routerId hevi nexthop hsid),
    carries_withdraw hwithdraw (onWire_imetOctets routerId hevi nexthop) hlength⟩

end Updates

/-- **The round trip.** Whatever is announced or withdrawn, the message is at most 4096 octets long
and has its length in its head, and its body is decoded to the one route with everything that
was announced, or to the one key that was withdrawn. Only a MAC route has a sequence number. -/
theorem update_round_trip (routerId : Octets 4) (nexthop sid : Octets 16)
    (hsid : badSid sid = false) :
    (∀ host, Carries (update routerId host 32 nexthop sid false)
        ([⟨.host host, sid, nexthop, .endDX4, 100, 0⟩], []) ∧
      Carries (update routerId host 32 nexthop sid true) ([], [.host host])) ∧
    ∀ evi < 65536, ∀ sequence < 2 ^ 32,
      (∀ mac, Carries (l2Update routerId evi nexthop sid (some mac) sequence false)
          ([⟨.mac evi mac, sid, nexthop, .endDX2, evi, sequence⟩], []) ∧
        Carries (l2Update routerId evi nexthop sid (some mac) sequence true) ([], [.mac evi mac])) ∧
      Carries (l2Update routerId evi nexthop sid none sequence false)
        ([⟨.imet evi nexthop, sid, nexthop, .endDX2, evi, 0⟩], []) ∧
      Carries (l2Update routerId evi nexthop sid none sequence true) ([], [.imet evi nexthop]) :=
  ⟨fun host => carries_update routerId host nexthop hsid, fun _ hevi sequence hsequence =>
    ⟨fun mac => carries_mac routerId hevi hsequence mac nexthop hsid,
      carries_imet routerId hevi sequence nexthop hsid⟩⟩

theorem update_round_trip_host :
    Carries (update (lastOctet 3 1) (lastOctet 3 10) 32 (lastOctet 15 2) (lastOctet 15 3) false)
      ([⟨.host (lastOctet 3 10), lastOctet 15 3, lastOctet 15 2, .endDX4, 100, 0⟩], []) :=
  ((update_round_trip (lastOctet 3 1) (lastOctet 15 2) (lastOctet 15 3) (by decide)).1
    (lastOctet 3 10)).1

/-- **The sequence number of an inclusive-multicast route is lost.** -/
theorem imet_loses_sequence :
    badSid (lastOctet 15 3) = false ∧
      ¬ Carries (l2Update (lastOctet 3 1) 100 (lastOctet 15 2) (lastOctet 15 3) none 1 false)
        ([⟨.imet 100 (lastOctet 15 2), lastOctet 15 3, lastOctet 15 2, .endDX2, 100, 1⟩], []) := by
  refine ⟨by decide, ?_⟩
  rintro ⟨octets, hbuilt, -, -, hread⟩
  have h := (carries_imet (lastOctet 3 1) (show 100 < 65536 by decide) 1 (lastOctet 15 2)
    (show badSid (lastOctet 15 3) = false by decide)).1
  obtain ⟨octets', hbuilt', -, -, hread'⟩ := h
  rw [hbuilt] at hbuilt'
  obtain rfl := Except.ok.inj hbuilt'
  rw [hread] at hread'
  exact absurd hread' (by decide)

end StarFabric.Evpn

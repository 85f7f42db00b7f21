import StarFabric.Evpn.Nlri

/-!
# The octets of messages

What the encoders of the codec build, as octets. Everything that is put into a message has a
bounded length, so an encoder fails only when a number does not fit: an EVI of more than two
octets or a sequence number of more than four (`l2Update_cases`).
-/

namespace StarFabric.Evpn

open Except ExceptFold List Py Wire

section Attributes

theorem pack_eq {k n : ℕ} (h : n < 256 ^ k) : pack k n = .ok (toOctets k n) := if_pos h

def attrOctets (kind : UInt8) (value : Bytes) (flags : UInt8) : Bytes :=
  [flags ||| 0x10, kind] ++ (toOctets 2 value.length ++ value)

variable {value : Bytes}

theorem attr_eq (kind : UInt8) (flags : UInt8) (h : value.length < 65536) :
    attr kind value flags = .ok (attrOctets kind value flags) := by
  unfold attr
  rw [pack_eq h]
  show ok _ = ok _
  rfl

def tlvOctets (kind : UInt8) (value : Bytes) : Bytes := kind :: (toOctets 2 value.length ++ value)

theorem tlv_eq (kind : UInt8) (h : value.length < 65536) :
    tlv kind value = .ok (tlvOctets kind value) := by
  unfold tlv
  rw [pack_eq h]
  rfl

theorem length_attrOctets (kind : UInt8) (value : Bytes) (flags : UInt8) :
    (attrOctets kind value flags).length = value.length + 4 := by
  unfold attrOctets
  simp only [length_append, length_toOctets, length_cons, length_nil]
  omega

theorem length_tlvOctets (kind : UInt8) (value : Bytes) :
    (tlvOctets kind value).length = value.length + 3 := by
  unfold tlvOctets
  simp only [length_append, length_toOctets, length_cons]
  omega

def attrsOctets (attributes : List (UInt8 × UInt8 × Bytes)) : Bytes :=
  attributes.flatMap fun a => attrOctets a.2.1 a.2.2 a.1

def updateOctets (body : Bytes) : Bytes :=
  List.replicate 16 0xff ++ (toOctets 2 (body.length + 23) ++ ([2] ++
    ([0x00, 0x00] ++ (toOctets 2 body.length ++ body))))

theorem updateMessage_eq {body : Bytes} (h : body.length ≤ 4073) :
    updateMessage body = .ok (updateOctets body) := by
  have hlength : ([0x00, 0x00] ++ toOctets 2 body.length ++ body).length = body.length + 4 := by
    simp only [length_append, length_toOctets, length_cons, length_nil]
    omega
  have hpack : pack 2 (19 + (body.length + 4)) = .ok (toOctets 2 (body.length + 23)) := by
    rw [pack_eq (by omega)]
    congr 2
    omega
  unfold updateMessage
  rw [pack_eq (by omega)]
  show message 2 ([0x00, 0x00] ++ toOctets 2 body.length ++ body) = _
  unfold message
  rw [hlength, if_neg (by omega), hpack]
  show ok _ = ok _
  simp only [updateOctets, append_assoc]

end Attributes

/-! ### Announcements and withdrawals -/

section

def withdrawn (route : Bytes) : List (UInt8 × UInt8 × Bytes) := [(0x80, 15, af ++ route)]

variable {route : Bytes}

theorem length_withdrawn (h : route.length ≤ 36) : (af ++ route).length ≤ 39 := by
  rw [length_append]
  show 3 + route.length ≤ 39
  omega

theorem length_attrs_withdrawn (h : route.length ≤ 36) :
    (attrsOctets (withdrawn route)).length ≤ 4073 := by
  have hlength := length_withdrawn h
  show (attrOctets 15 (af ++ route) 0x80 ++ []).length ≤ 4073
  rw [append_nil, length_attrOctets]
  omega

theorem withdrawal_eq (h : route.length ≤ 36) :
    (withdrawal route >>= updateMessage) = .ok (updateOctets (attrsOctets (withdrawn route))) := by
  have hlength := length_withdrawn h
  have hattributes : withdrawal route = .ok (attrsOctets (withdrawn route)) := by
    refine (attr_eq 15 0x80 (by omega)).trans (congrArg ok ?_)
    exact (append_nil _).symm
  rw [hattributes]
  exact updateMessage_eq (length_attrs_withdrawn h)

def infoOctets (behavior : ℕ) (sid : Octets 16) : Bytes :=
  [0x00] ++ (sid.1 ++ ([0x00] ++ (toOctets 2 behavior ++ [0x00])))

theorem length_infoOctets (behavior : ℕ) (sid : Octets 16) :
    (infoOctets behavior sid).length = 21 := by
  unfold infoOctets
  simp only [length_append, length_toOctets, length_cons, length_nil, sid.2]

def serviceOctets (service : UInt8) (behavior : ℕ) (sid : Octets 16) : Bytes :=
  tlvOctets service ([0x00] ++ tlvOctets 1 (infoOctets behavior sid))

theorem length_serviceOctets (service : UInt8) (behavior : ℕ) (sid : Octets 16) :
    (serviceOctets service behavior sid).length = 28 := by
  unfold serviceOctets
  rw [length_tlvOctets, length_append, length_tlvOctets, length_infoOctets]
  rfl

def reachOctets (nexthop : Octets 16) (route : Bytes) : Bytes :=
  (af ++ [0x10]) ++ (nexthop.1 ++ ([0x00] ++ route))

theorem length_reachOctets (nexthop : Octets 16) (route : Bytes) :
    (reachOctets nexthop route).length = route.length + 21 := by
  unfold reachOctets
  simp only [length_append, length_cons, length_nil, nexthop.2, af]
  omega

def announced (communities : Bytes) (service : UInt8) (behavior : ℕ) (sid nexthop : Octets 16)
    (route : Bytes) : List (UInt8 × UInt8 × Bytes) :=
  [(0x40, 1, [0x00]), (0x40, 2, []), (0x40, 5, toOctets 4 100), (0xc0, 16, communities),
    (0xc0, 40, serviceOctets service behavior sid), (0x80, 14, reachOctets nexthop route)]

theorem announcement_eq {communities : Bytes} {behavior : ℕ} (service : UInt8)
    (sid nexthop : Octets 16) (hcommunities : communities.length ≤ 16) (hroute : route.length ≤ 36)
    (hbehavior : behavior < 65536) :
    announcement communities service behavior sid nexthop route =
      .ok (attrsOctets (announced communities service behavior sid nexthop route)) := by
  have hinfo : [0x00] ++ sid.1 ++ [0] ++ toOctets 2 behavior ++ [0] = infoOctets behavior sid := by
    simp only [infoOctets, append_assoc]
  have hreach : af ++ [0x10] ++ nexthop.1 ++ [0x00] ++ route = reachOctets nexthop route := by
    simp only [reachOctets, append_assoc]
  have hservice : ([0x00] ++ tlvOctets 1 (infoOctets behavior sid)).length < 65536 := by
    rw [length_append, length_tlvOctets, length_infoOctets]
    decide
  have hservice' : (serviceOctets service behavior sid).length < 65536 := by
    rw [length_serviceOctets]
    decide
  have hlength : (reachOctets nexthop route).length < 65536 := by
    rw [length_reachOctets]
    omega
  refine bind_eq_ok.mpr ⟨_, pack_eq (k := 2) hbehavior, ?_⟩
  rw [hinfo, hreach]
  refine bind_eq_ok.mpr ⟨_, attr_eq 1 0x40 (by decide), ?_⟩
  refine bind_eq_ok.mpr ⟨_, attr_eq 2 0x40 (by decide), ?_⟩
  refine bind_eq_ok.mpr ⟨_, pack_eq (by decide), ?_⟩
  refine bind_eq_ok.mpr ⟨_, attr_eq 5 0x40 (by decide), ?_⟩
  refine bind_eq_ok.mpr ⟨_, attr_eq 16 0xc0 (by omega), ?_⟩
  refine bind_eq_ok.mpr ⟨_, tlv_eq 1 (by rw [length_infoOctets]; decide), ?_⟩
  refine bind_eq_ok.mpr ⟨_, tlv_eq service hservice, ?_⟩
  refine bind_eq_ok.mpr ⟨_, attr_eq 40 0xc0 hservice', ?_⟩
  refine bind_eq_ok.mpr ⟨_, attr_eq 14 0x80 hlength, congrArg ok ?_⟩
  simp only [attrsOctets, announced, flatMap_cons, flatMap_nil, append_assoc,
    append_nil, serviceOctets]

/-- The attribute that an inclusive-multicast route has behind the others. -/
def tunnels (key : Key) (nexthop : Octets 16) : List (UInt8 × UInt8 × Bytes) :=
  match key with
  | .imet _ _ => [(0xc0, 22, [0x00, 0x06, 0x00, 0x00, 0x30] ++ nexthop.1)]
  | _ => []

theorem length_tunnels (key : Key) (nexthop : Octets 16) :
    (attrsOctets (tunnels key nexthop)).length ≤ 25 := by
  cases key with
  | host _ | mac _ _ => exact Nat.zero_le 25
  | imet evi originator =>
    show (attrOctets 22 ([0x00, 0x06, 0x00, 0x00, 0x30] ++ nexthop.1) 0xc0 ++ []).length ≤ 25
    rw [append_nil, length_attrOctets, length_append, nexthop.2]
    decide

theorem length_announced {communities : Bytes} (service : UInt8) (behavior : ℕ)
    (sid nexthop : Octets 16) (key : Key) (hcommunities : communities.length ≤ 16)
    (hroute : route.length ≤ 36) :
    (attrsOctets (announced communities service behavior sid nexthop route ++
      tunnels key nexthop)).length ≤ 4073 := by
  have htunnels := length_tunnels key nexthop
  unfold attrsOctets at htunnels ⊢
  rw [flatMap_append, length_append]
  simp only [announced, flatMap_cons, flatMap_nil, length_append,
    length_attrOctets, length_serviceOctets, length_reachOctets, length_toOctets,
    length_cons, length_nil]
  omega

def targetOctets (evi : ℕ) : Bytes := [0x00, 0x02, 0xfd, 0xe8] ++ toOctets 4 evi

theorem routeTarget_eq {evi : ℕ} (h : evi < 65536) : routeTarget evi = .ok (targetOctets evi) := by
  refine bind_eq_ok.mpr ⟨_, pack_eq (by decide), ?_⟩
  exact bind_eq_ok.mpr ⟨_, pack_eq (k := 4) (by omega), rfl⟩

theorem length_targetOctets (evi : ℕ) : (targetOctets evi).length = 8 := rfl

def mobilityOctets (sequence : ℕ) : Bytes := [0x06, 0x00, 0x00, 0x00] ++ toOctets 4 sequence

theorem mobility_eq {sequence : ℕ} (h : sequence < 2 ^ 32) :
    mobility sequence = .ok (mobilityOctets sequence) :=
  bind_eq_ok.mpr ⟨_, pack_eq (k := 4) h, rfl⟩

end

section Routes

variable (routerId : Octets 4)

def distinguisher : Octets 8 :=
  ⟨[0x00, 0x01] ++ (routerId.1 ++ toOctets 2 100), by
    rw [length_append, length_append, routerId.2]
    rfl⟩

def hostOctets (host : Octets 4) : Bytes := 5 :: 34 :: hostValue (distinguisher routerId) host

def macOctets (evi : ℕ) (mac : Octets 6) : Bytes := 2 :: 33 :: macValue routerId evi mac

def imetOctets (evi : ℕ) (originator : Octets 16) : Bytes :=
  3 :: 29 :: imetValue routerId evi originator

theorem length_hostOctets (host : Octets 4) : (hostOctets routerId host).length ≤ 36 := by
  unfold hostOctets
  rw [length_cons, length_cons, length_hostValue]

theorem length_macOctets (evi : ℕ) (mac : Octets 6) : (macOctets routerId evi mac).length ≤ 36 := by
  unfold macOctets
  rw [length_cons, length_cons, length_macValue]
  decide

theorem length_imetOctets (evi : ℕ) (originator : Octets 16) :
    (imetOctets routerId evi originator).length ≤ 36 := by
  unfold imetOctets
  rw [length_cons, length_cons, length_imetValue]
  decide

theorem nlri_eq (host : Octets 4) : nlri routerId host 32 = .ok (hostOctets routerId host) := by
  have hvalue : [0x00, 0x01] ++ routerId.1 ++ toOctets 2 100 ++ zeros 14 ++ [32] ++ host.1 ++
      zeros 4 ++ [0x00, 0x00, 0x30] = hostValue (distinguisher routerId) host := by
    simp only [hostValue, distinguisher, append_assoc]
  refine bind_eq_ok.mpr ⟨[0x00, 0x01], rfl, ?_⟩
  refine bind_eq_ok.mpr ⟨toOctets 2 100, rfl, ?_⟩
  dsimp only
  rw [hvalue, length_hostValue]
  rfl

variable {evi : ℕ}

theorem l2Nlri_mac (hevi : evi < 65536) (mac : Octets 6) (originator : Octets 16) :
    l2Nlri routerId evi (some mac) originator = .ok (macOctets routerId evi mac) := by
  have hvalue : [0x00, 0x01] ++ routerId.1 ++ toOctets 2 evi ++ zeros 14 ++ [0x30] ++ mac.1 ++
      [0x00, 0x00, 0x00, 0x30] = macValue routerId evi mac := by
    simp only [macValue, append_assoc]
  refine bind_eq_ok.mpr ⟨[0x00, 0x01], rfl, ?_⟩
  refine bind_eq_ok.mpr ⟨toOctets 2 evi, pack_eq (k := 2) hevi, ?_⟩
  dsimp only
  rw [hvalue, length_macValue]
  rfl

theorem l2Nlri_imet (hevi : evi < 65536) (originator : Octets 16) :
    l2Nlri routerId evi none originator = .ok (imetOctets routerId evi originator) := by
  have hvalue : [0x00, 0x01] ++ routerId.1 ++ toOctets 2 evi ++ zeros 4 ++ [0x80] ++ originator.1 =
      imetValue routerId evi originator := by
    simp only [imetValue, append_assoc]
  refine bind_eq_ok.mpr ⟨[0x00, 0x01], rfl, ?_⟩
  refine bind_eq_ok.mpr ⟨toOctets 2 evi, pack_eq (k := 2) hevi, ?_⟩
  dsimp only
  rw [hvalue, length_imetValue]
  rfl

end Routes

section Updates

variable (routerId : Octets 4) (nexthop sid : Octets 16)

def announceOctets (communities : Bytes) (service : UInt8) (behavior : ℕ) (key : Key)
    (route : Bytes) : Bytes :=
  updateOctets (attrsOctets
    (announced communities service behavior sid nexthop route ++ tunnels key nexthop))

def withdrawOctets (route : Bytes) : Bytes := updateOctets (attrsOctets (withdrawn route))

variable {nexthop sid}

theorem announced_eq {communities route : Bytes} {behavior : ℕ} (service : UInt8) (key : Key)
    (hcommunities : communities.length ≤ 16) (hroute : route.length ≤ 36) :
    updateMessage (attrsOctets
        (announced communities service behavior sid nexthop route ++ tunnels key nexthop)) =
      .ok (announceOctets nexthop sid communities service behavior key route) :=
  updateMessage_eq (length_announced service behavior sid nexthop key hcommunities hroute)

variable (nexthop sid)

theorem update_eq (host : Octets 4) :
    update routerId host 32 nexthop sid false = .ok
        (announceOctets nexthop sid (targetOctets 100) 5 dx4 (.host host)
          (hostOctets routerId host)) ∧
      update routerId host 32 nexthop sid true =
        .ok (withdrawOctets (hostOctets routerId host)) := by
  have hlength := length_hostOctets routerId host
  have hcommunities := length_targetOctets 100
  unfold update
  rw [nlri_eq]
  refine ⟨?_, withdrawal_eq hlength⟩
  show (routeTarget 100 >>= fun target => announcement target 5 dx4 sid nexthop
    (hostOctets routerId host) >>= updateMessage) = _
  show (announcement (targetOctets 100) 5 dx4 sid nexthop _ >>= updateMessage) = _
  rw [announcement_eq 5 sid nexthop (by omega) hlength (by decide)]
  exact announced_eq 5 (.host host) (by omega) hlength

variable {evi sequence : ℕ}

theorem l2Update_mac_eq (hevi : evi < 65536) (hsequence : sequence < 2 ^ 32) (mac : Octets 6) :
    l2Update routerId evi nexthop sid (some mac) sequence false = .ok
      (announceOctets nexthop sid (targetOctets evi ++ mobilityOctets sequence) 6 dx2 (.mac evi mac)
        (macOctets routerId evi mac)) := by
  have hlength := length_macOctets routerId evi mac
  have hcommunities : (targetOctets evi ++ mobilityOctets sequence).length ≤ 16 := Nat.le_refl 16
  unfold l2Update
  rw [l2Nlri_mac routerId hevi]
  show (routeTarget evi >>= fun target => mobility sequence >>= fun _ => _) = _
  rw [routeTarget_eq hevi, mobility_eq hsequence]
  show (announcement (targetOctets evi ++ mobilityOctets sequence) 6 dx2 sid nexthop _ >>=
    updateMessage) = _
  rw [announcement_eq 6 sid nexthop hcommunities hlength (by decide)]
  exact announced_eq 6 (.mac evi mac) hcommunities hlength

theorem l2Update_mac_withdraw_eq (hevi : evi < 65536) (sequence : ℕ) (mac : Octets 6) :
    l2Update routerId evi nexthop sid (some mac) sequence true =
      .ok (withdrawOctets (macOctets routerId evi mac)) := by
  have hlength := length_macOctets routerId evi mac
  unfold l2Update
  rw [l2Nlri_mac routerId hevi]
  exact withdrawal_eq hlength

theorem l2Update_imet_eq (hevi : evi < 65536) (sequence : ℕ) :
    l2Update routerId evi nexthop sid none sequence false = .ok
        (announceOctets nexthop sid (targetOctets evi) 6 dx2 (.imet evi nexthop)
          (imetOctets routerId evi nexthop)) ∧
      l2Update routerId evi nexthop sid none sequence true =
        .ok (withdrawOctets (imetOctets routerId evi nexthop)) := by
  have hlength := length_imetOctets routerId evi nexthop
  have hcommunities := length_targetOctets evi
  have htunnel : tunnel nexthop = .ok (attrsOctets (tunnels (.imet evi nexthop) nexthop)) := by
    have h : ([0x00, 0x06, 0x00, 0x00, 0x30] ++ nexthop.1).length < 65536 := by
      rw [length_append, nexthop.2]
      decide
    exact (attr_eq 22 0xc0 h).trans (congrArg ok (append_nil _).symm)
  have happend : attrsOctets (announced (targetOctets evi) 6 dx2 sid nexthop
        (imetOctets routerId evi nexthop)) ++ attrsOctets (tunnels (.imet evi nexthop) nexthop) =
      attrsOctets (announced (targetOctets evi) 6 dx2 sid nexthop
        (imetOctets routerId evi nexthop) ++ tunnels (.imet evi nexthop) nexthop) :=
    flatMap_append.symm
  unfold l2Update
  rw [l2Nlri_imet routerId hevi]
  refine ⟨?_, withdrawal_eq hlength⟩
  show (routeTarget evi >>= fun target => _) = _
  rw [routeTarget_eq hevi]
  show (announcement (targetOctets evi) 6 dx2 sid nexthop _ >>= fun attributes =>
    tunnel nexthop >>= fun more => updateMessage (attributes ++ more)) = _
  rw [announcement_eq 6 sid nexthop (by omega) hlength (by decide), htunnel]
  show updateMessage (_ ++ _) = _
  rw [happend]
  exact announced_eq 6 (.imet evi nexthop) (by omega) hlength

theorem l2Update_of_evi (hevi : ¬ evi < 65536) (mac : Option (Octets 6)) (sequence : ℕ)
    (withdraw : Bool) :
    l2Update routerId evi nexthop sid mac sequence withdraw = .error .structError := by
  have hroute : l2Nlri routerId evi mac nexthop = .error .structError := by
    unfold l2Nlri
    rw [show pack 2 evi = .error .structError from if_neg hevi]
    rfl
  unfold l2Update
  rw [hroute]
  rfl

theorem l2Update_of_sequence (hevi : evi < 65536) (hsequence : ¬ sequence < 2 ^ 32)
    (mac : Octets 6) :
    l2Update routerId evi nexthop sid (some mac) sequence false = .error .structError := by
  have hmobility : mobility sequence = .error .structError := by
    unfold mobility
    rw [pack, if_neg (show ¬ sequence < 256 ^ 4 from hsequence)]
    rfl
  unfold l2Update
  rw [l2Nlri_mac routerId hevi]
  show (routeTarget evi >>= fun target => mobility sequence >>= fun _ => _) = _
  rw [routeTarget_eq hevi, hmobility]
  rfl

theorem l2Update_cases (evi sequence : ℕ) (mac : Option (Octets 6)) (withdraw : Bool) :
    (∃ octets, l2Update routerId evi nexthop sid mac sequence withdraw = .ok octets) ∨
      l2Update routerId evi nexthop sid mac sequence withdraw = .error .structError := by
  by_cases hevi : evi < 65536
  · match mac, withdraw with
    | none, false => exact .inl ⟨_, (l2Update_imet_eq routerId nexthop sid hevi sequence).1⟩
    | none, true => exact .inl ⟨_, (l2Update_imet_eq routerId nexthop sid hevi sequence).2⟩
    | some mac, true =>
      exact .inl ⟨_, l2Update_mac_withdraw_eq routerId nexthop sid hevi sequence mac⟩
    | some mac, false =>
      by_cases hsequence : sequence < 2 ^ 32
      · exact .inl ⟨_, l2Update_mac_eq routerId nexthop sid hevi hsequence mac⟩
      · exact .inr (l2Update_of_sequence routerId nexthop sid hevi hsequence mac)
  · exact .inr (l2Update_of_evi routerId nexthop sid hevi mac sequence withdraw)

variable {octets : Bytes}

theorem evi_lt_of_l2Update {mac : Option (Octets 6)} {withdraw : Bool}
    (h : l2Update routerId evi nexthop sid mac sequence withdraw = .ok octets) :
    evi < 65536 := by
  by_contra hevi
  rw [l2Update_of_evi routerId nexthop sid hevi] at h
  cases h

theorem sequence_lt_of_l2Update {mac : Octets 6}
    (h : l2Update routerId evi nexthop sid (some mac) sequence false = .ok octets) :
    sequence < 2 ^ 32 := by
  by_contra hsequence
  have hevi := evi_lt_of_l2Update routerId nexthop sid h
  rw [l2Update_of_sequence routerId nexthop sid hevi hsequence] at h
  cases h

end Updates

end StarFabric.Evpn

import StarFabric.Evpn.Stream
import StarFabric.Lib.Mirror

/-!
# What a speaker exports

Each export is an announcement that says one route and a withdrawal that says its key
(`Exported`). Going from one set of exports to another, `publish` writes messages that bring the
value of a key from the old one to the new one (`changes_mirror`). The exports of MACs are those of
the learned entries (`exports_good`).
-/

namespace StarFabric.Evpn

open Py Wire ExceptFold List

/-! ### Messages of the encoders -/

section

theorem updateOctets_eq (body : Bytes) :
    updateOctets body = frameOctets 2 ([0x00, 0x00] ++ (toOctets 2 body.length ++ body)) := by
  have hlength : ([0x00, 0x00] ++ (toOctets 2 body.length ++ body)).length + 19 =
      body.length + 23 := by
    simp only [length_append, length_toOctets, length_cons, length_nil]
    omega
  unfold updateOctets frameOctets
  rw [hlength]

theorem says_updateOctets {body : Bytes} {note : Note} (h : body.length ≤ 4073)
    (hsaid : note.SaidBy 2 ((updateOctets body).drop 19)) : Says (updateOctets body) note := by
  refine ⟨2, (updateOctets body).drop 19, ?_, ?_, hsaid⟩
  · rw [drop_updateOctets]
    exact updateOctets_eq body
  · rw [length_drop, length_updateOctets]
    omega

theorem says_withdrawOctets {route : Bytes} {key : Key} (hroute : OnWire route [key])
    (hshort : route.length ≤ 36) : Says (withdrawOctets route) (.withdraw key) :=
  says_updateOctets (length_attrs_withdrawn hshort)
    (.withdraw (readUpdate_withdrawOctets hroute hshort))

theorem says_keepalive : ∃ octets, message 4 [] = .ok octets ∧ Says octets .keepalive :=
  ⟨frameOctets 4 [], rfl, 4, [], rfl, Nat.zero_le _, .keepalive⟩

end

/-! ### Exports -/

/-- The SIDs of the configuration are proper, those of the L2 services are in the site's own
locator, and the locators of the imports are networks. -/
structure Config.Proper (c : Config) : Prop where
  sid : badSid c.sid = false
  exportSids : ∀ e ∈ c.exportSids, badSid e.2 = false
  services : ∀ v ∈ c.l2, badSid v.sid = false ∧ (Network.mk c.address 64).contains v.sid = true
  locators : ∀ e ∈ c.imports, e.2.locator.isSome = true

structure Exported (c : Config) (e : Key × Bytes × Bytes) (route : Route) : Prop where
  key : route.key = e.1
  nexthop : route.nexthop = c.address
  sid : route.key.routeType ≠ 5 → (Network.mk c.address 64).contains route.sid = true
  announce : Says e.2.1 (.announce route)
  withdraw : Says e.2.2 (.withdraw e.1)

section Exports

variable {c : Config}

variable {evi : ℕ}

theorem mem_of_service {service : L2Service} (h : c.service evi = some service) :
    service ∈ c.l2 := mem_reverse.mp (mem_of_find?_eq_some h)

variable {e : Key × Bytes × Bytes}

theorem exported_of_hostExport (hc : c.Proper) {host : Octets 4} (h : hostExport c host = .ok e) :
    e.1 = .host host ∧ ∃ route, Exported c e route := by
  have hsid : badSid ((c.exportSids.lookup host).getD c.sid) = false := by
    cases hlookup : c.exportSids.lookup host with
    | none => exact hc.sid
    | some sid =>
      obtain ⟨before, after, heq, -⟩ := lookup_eq_some_iff.mp hlookup
      exact hc.exportSids (host, sid) (heq ▸ mem_append_right before mem_cons_self)
  have hlength := length_hostOctets c.routerId host
  obtain ⟨hannounce, hwithdraw⟩ :=
    update_eq c.routerId c.address ((c.exportSids.lookup host).getD c.sid) host
  unfold hostExport at h
  dsimp only at h
  rw [hannounce, hwithdraw] at h
  cases h
  refine ⟨rfl, ⟨.host host, (c.exportSids.lookup host).getD c.sid, c.address, .endDX4, 100, 0⟩,
    rfl, rfl, fun h => absurd rfl h, ?_, ?_⟩
  · exact says_updateOctets (length_announced _ _ _ _ _ (show 8 ≤ 16 by decide) hlength)
      (.announce (readUpdate_host c.routerId host c.address hsid))
  · exact says_withdrawOctets (onWire_hostOctets c.routerId host) hlength

theorem exported_of_imetExport (hc : c.Proper) (h : imetExport c evi = .ok e) :
    e.1 = .imet evi c.address ∧ ∃ route, Exported c e route := by
  unfold imetExport at h
  cases hservice : c.service evi with
  | none =>
    rw [hservice] at h
    cases h
  | some service =>
    rw [hservice] at h
    obtain ⟨announcement, hannounced, h⟩ := bind_eq_ok.mp h
    obtain ⟨withdrawal, hwithdrawn, h⟩ := bind_eq_ok.mp h
    cases h
    have hevi := evi_lt_of_l2Update _ _ _ hannounced
    obtain ⟨hproper, hcontains⟩ := hc.services service (mem_of_service hservice)
    obtain ⟨hannounce, hwithdraw⟩ := l2Update_imet_eq c.routerId c.address service.sid hevi 0
    rw [hannounce] at hannounced
    rw [hwithdraw] at hwithdrawn
    cases hannounced
    cases hwithdrawn
    have hlength := length_imetOctets c.routerId evi c.address
    refine ⟨rfl, ⟨.imet evi c.address, service.sid, c.address, .endDX2, evi, 0⟩, rfl, rfl,
      fun _ => hcontains, ?_, ?_⟩
    · exact says_updateOctets (length_announced _ _ _ _ _ (show 8 ≤ 16 by decide) hlength)
        (.announce (readUpdate_imet c.routerId hevi c.address hproper))
    · exact says_withdrawOctets (onWire_imetOctets c.routerId hevi c.address) hlength

theorem exported_of_macExport (hc : c.Proper) {m : LocalMac} (h : macExport c m = .ok e) :
    e.1 = .mac m.evi m.mac ∧ ∃ route, Exported c e route ∧ route.sequence = m.sequence := by
  unfold macExport at h
  cases hservice : c.service m.evi with
  | none =>
    rw [hservice] at h
    cases h
  | some service =>
    rw [hservice] at h
    obtain ⟨announcement, hannounced, h⟩ := bind_eq_ok.mp h
    obtain ⟨withdrawal, hwithdrawn, h⟩ := bind_eq_ok.mp h
    cases h
    have hevi := evi_lt_of_l2Update _ _ _ hannounced
    have hsequence := sequence_lt_of_l2Update _ _ _ hannounced
    obtain ⟨hproper, hcontains⟩ := hc.services service (mem_of_service hservice)
    rw [l2Update_mac_eq c.routerId c.address service.sid hevi hsequence] at hannounced
    rw [l2Update_mac_withdraw_eq c.routerId c.address service.sid hevi] at hwithdrawn
    cases hannounced
    cases hwithdrawn
    have hlength := length_macOctets c.routerId m.evi m.mac
    refine ⟨rfl, ⟨.mac m.evi m.mac, service.sid, c.address, .endDX2, m.evi, m.sequence⟩,
      ⟨rfl, rfl, fun _ => hcontains, ?_, ?_⟩, rfl⟩
    · exact says_updateOctets (length_announced _ _ _ _ _ (Nat.le_refl 16) hlength)
        (.announce (readUpdate_mac c.routerId hevi hsequence m.mac c.address hproper))
    · exact says_withdrawOctets (onWire_macOctets c.routerId hevi m.mac) hlength

end Exports

/-! ### A key and its value -/

def announcedRoute (octets : Bytes) : Option Route :=
  match readUpdate (octets.drop 19) with
  | .ok ([route], []) => some route
  | _ => none

/-- What a note of the site `i` writes for a key at its peers. -/
def Note.on (i : Address) (key : Key) : Note → Option (Option Entry)
  | .keepalive => none
  | .announce route => if route.key = key then some (some ⟨route, i⟩) else none
  | .withdraw key' => if key' = key then some none else none

def Exports.entry (i : Address) (key : Key) (out : Exports) : Option Entry :=
  (out.lookup key).bind fun e => (announcedRoute e.1).map fun route => ⟨route, i⟩

/-- Every export announces a route, there is one for the key, and its sequence number satisfies
`Q`. -/
structure Exports.Good (c : Config) (key : Key) (Q : ℕ → Prop) (out : Exports) : Prop where
  exported : ∀ e ∈ out, ∃ route, Exported c e route ∧ (route.key = key → Q route.sequence)
  functional : ∀ e ∈ out, e.1 = key → out.lookup key = some e.2

/-- An announced route is one that the peers admit, and the sequence number of the key satisfies
`Q`. -/
def Note.Good (c : Config) (key : Key) (Q : ℕ → Prop) (note : Note) : Prop :=
  ∀ route, note = .announce route → route.nexthop = c.address ∧
    (route.key.routeType ≠ 5 → (Network.mk c.address 64).contains route.sid = true) ∧
    (route.key = key → Q route.sequence)

section Values

variable {c : Config} {key : Key} {Q : ℕ → Prop} {old new out : Exports}

variable {route : Route}

theorem announcedRoute_of_announce {octets : Bytes} (h : Says octets (.announce route)) :
    announcedRoute octets = some route := by
  obtain ⟨kind, body, rfl, -, hsaid⟩ := h
  unfold announcedRoute
  rw [drop_frameOctets]
  cases hsaid with
  | announce hread => rw [hread]

def announceNote (e : Key × Bytes × Bytes) : Note :=
  ((announcedRoute e.2.1).map Note.announce).getD .keepalive

variable {e : Key × Bytes × Bytes}

theorem Exported.announceNote (h : Exported c e route) : Evpn.announceNote e = .announce route := by
  unfold Evpn.announceNote
  rw [announcedRoute_of_announce h.announce]
  rfl

theorem Exports.Good.announces (hout : out.Good c key Q) {l : Exports} (hl : ∀ e ∈ l, e ∈ out) :
    Stream (l.flatMap fun e => e.2.1) (l.map announceNote) ∧
      ∀ note ∈ l.map announceNote, note.Good c key Q := by
  constructor
  · refine Stream.flatMap fun e he => ?_
    obtain ⟨route, hroute, -⟩ := hout.exported e (hl e he)
    rw [hroute.announceNote]
    exact hroute.announce
  · intro note hnote route heq
    obtain ⟨e, he, rfl⟩ := mem_map.mp hnote
    obtain ⟨route', hroute, hQ⟩ := hout.exported e (hl e he)
    rw [hroute.announceNote] at heq
    cases heq
    exact ⟨hroute.nexthop, hroute.sid, hQ⟩

theorem Exports.Good.entry_eq (hout : out.Good c key Q) (he : e ∈ out) (hkey : e.1 = key)
    (i : Address) :
    (announceNote e).on i key = some (out.entry i key) := by
  obtain ⟨route, hroute, -⟩ := hout.exported e he
  rw [hroute.announceNote]
  unfold Exports.entry
  rw [hout.functional e he hkey, Option.bind_some, announcedRoute_of_announce hroute.announce]
  exact if_pos (hroute.key.trans hkey)

theorem on_announceNote_of_ne (hout : out.Good c key Q) (he : e ∈ out) (hkey : e.1 ≠ key)
    (i : Address) : (announceNote e).on i key = none := by
  obtain ⟨route, hroute, -⟩ := hout.exported e he
  rw [hroute.announceNote]
  exact if_neg fun h => hkey (hroute.key.symm.trans h)

theorem replay_withdraws_of_none (hlookup : new.lookup key = none) (i : Address) :
    Mirror.replay (Note.on i key) (old.entry i key)
        ((old.filter fun e => (new.lookup e.1).isNone).map fun e => .withdraw e.1) =
      new.entry i key := by
  have hnew : new.entry i key = none := by
    unfold Exports.entry
    rw [hlookup]
    rfl
  rw [hnew]
  by_cases hmem : ∃ e ∈ old, e.1 = key
  · refine Mirror.replay_of_some (fun note hnote => ?_) ?_ _
    · obtain ⟨e, -, rfl⟩ := mem_map.mp hnote
      by_cases hkey : e.1 = key
      · exact .inr (if_pos hkey)
      · exact .inl (if_neg hkey)
    · obtain ⟨e, he, hkey⟩ := hmem
      refine ⟨.withdraw e.1, mem_map.mpr ⟨e, mem_filter.mpr ⟨he, ?_⟩, rfl⟩, if_pos hkey⟩
      rw [hkey, hlookup]
      rfl
  · rw [Mirror.replay_of_none]
    · unfold Exports.entry
      rw [lookup_eq_none_iff.mpr fun e he => bne_iff_ne.mpr fun h => hmem ⟨e, he, h.symm⟩]
      rfl
    · intro note hnote
      obtain ⟨e, he, rfl⟩ := mem_map.mp hnote
      exact if_neg fun h => hmem ⟨e, mem_of_mem_filter he, h⟩

theorem replay_announces_of_none (hnew : new.Good c key Q) (hlookup : new.lookup key = none)
    (i : Address) (x : Option Entry) :
    Mirror.replay (Note.on i key) x
      ((new.filter fun e => old.lookup e.1 != some e.2).map announceNote) = x := by
  refine Mirror.replay_of_none (fun note hnote => ?_) x
  obtain ⟨e, he, rfl⟩ := mem_map.mp hnote
  refine on_announceNote_of_ne hnew (mem_of_mem_filter he) (fun hkey => ?_) i
  have hsome := hnew.functional e (mem_of_mem_filter he) hkey
  rw [hlookup] at hsome
  cases hsome

theorem replay_withdraws_of_some {e : Bytes × Bytes} (hlookup : new.lookup key = some e)
    (i : Address) (x : Option Entry) :
    Mirror.replay (Note.on i key) x
      ((old.filter fun e => (new.lookup e.1).isNone).map fun e => .withdraw e.1) = x := by
  refine Mirror.replay_of_none (fun note hnote => ?_) x
  obtain ⟨e', he', rfl⟩ := mem_map.mp hnote
  refine if_neg fun hkey => ?_
  have hnone := (mem_filter.mp he').2
  rw [hkey, hlookup] at hnone
  cases hnone

theorem replay_announces_of_some (hnew : new.Good c key Q) {e : Bytes × Bytes}
    (hlookup : new.lookup key = some e) (i : Address) :
    Mirror.replay (Note.on i key) (old.entry i key)
        ((new.filter fun e => old.lookup e.1 != some e.2).map announceNote) =
      new.entry i key := by
  by_cases hsame : old.lookup key = some e
  · rw [Mirror.replay_of_none]
    · unfold Exports.entry
      rw [hsame, hlookup]
    · intro note hnote
      obtain ⟨e', he', rfl⟩ := mem_map.mp hnote
      obtain ⟨hmem, hchanged⟩ := mem_filter.mp he'
      refine on_announceNote_of_ne hnew hmem (fun hkey => ?_) i
      have hfunctional := hnew.functional e' hmem hkey
      rw [hkey, hsame, ← hlookup, hfunctional] at hchanged
      simp at hchanged
  · refine Mirror.replay_of_some (fun note hnote => ?_) ?_ _
    · obtain ⟨e', he', rfl⟩ := mem_map.mp hnote
      have hmem := mem_of_mem_filter he'
      by_cases hkey : e'.1 = key
      · exact .inr (hnew.entry_eq hmem hkey i)
      · exact .inl (on_announceNote_of_ne hnew hmem hkey i)
    · obtain ⟨before, after, heq, -⟩ := lookup_eq_some_iff.mp hlookup
      have hmem : (key, e) ∈ new := heq ▸ mem_append_right before mem_cons_self
      have hchanged : (key, e) ∈ new.filter fun e => old.lookup e.1 != some e.2 :=
        mem_filter.mpr ⟨hmem, bne_iff_ne.mpr hsame⟩
      exact ⟨announceNote (key, e), mem_map.mpr ⟨(key, e), hchanged, rfl⟩, hnew.entry_eq hmem rfl i⟩

/-- **From one set of exports to another.** The messages that are written bring the value of the
key from the old one to the new one. -/
theorem changes_mirror (hold : old.Good c key Q) (hnew : new.Good c key Q) (i : Address) :
    ∃ notes, Stream (changes old new) notes ∧ (∀ note ∈ notes, note.Good c key Q) ∧
      Mirror.replay (Note.on i key) (old.entry i key) notes = new.entry i key := by
  have hfilter : ∀ e ∈ new.filter fun e => old.lookup e.1 != some e.2, e ∈ new :=
    fun e he => mem_of_mem_filter he
  obtain ⟨hannounces, hgood⟩ := hnew.announces hfilter
  have hwithdraws : Stream ((old.filter fun e => (new.lookup e.1).isNone).flatMap fun e => e.2.2)
      ((old.filter fun e => (new.lookup e.1).isNone).map fun e => .withdraw e.1) := by
    refine Stream.flatMap fun e he => ?_
    obtain ⟨route, hroute, -⟩ := hold.exported e (mem_of_mem_filter he)
    exact hroute.withdraw
  refine ⟨_, hwithdraws.append hannounces, ?_, ?_⟩
  · intro note hnote
    obtain hnote | hnote := mem_append.mp hnote
    · obtain ⟨e, -, rfl⟩ := mem_map.mp hnote
      exact nofun
    · exact hgood note hnote
  · rw [Mirror.replay_append]
    cases hlookup : new.lookup key with
    | none => rw [replay_announces_of_none hnew hlookup, replay_withdraws_of_none hlookup]
    | some e => rw [replay_withdraws_of_some hlookup, replay_announces_of_some hnew hlookup]

end Values

/-! ### The exports of the learned entries -/

def LocalMacs.Keyed (macs : LocalMacs) : Prop :=
  ∀ k m, macs.lookup k = some m → k = .mac m.evi m.mac

section Learned

variable {c : Config} {macs : LocalMacs} {out : Exports} {evi : ℕ} {mac : Octets 6}

variable {e : Key × Bytes × Bytes}

theorem mem_exports (h : exports c macs = .ok out) (he : e ∈ out) :
    (∃ host, hostExport c host = .ok e) ∨ (∃ evi, imetExport c evi = .ok e) ∨
      ∃ k m, macs.lookup k = some m ∧ macExport c m = .ok e := by
  obtain ⟨hosts, hhosts, h⟩ := bind_eq_ok.mp h
  obtain ⟨imets, himets, h⟩ := bind_eq_ok.mp h
  obtain ⟨learned, hlearned, h⟩ := bind_eq_ok.mp h
  cases h
  obtain he | he := mem_append.mp he
  · obtain he | he := mem_append.mp he
    · obtain ⟨host, -, hexport⟩ := (mapM_ok hhosts).1 e he
      exact .inl ⟨host, hexport⟩
    · obtain ⟨evi, -, hexport⟩ := (mapM_ok himets).1 e he
      exact .inr (.inl ⟨evi, hexport⟩)
  · obtain ⟨⟨k, m⟩, hentry, hexport⟩ := (mapM_ok hlearned).1 e he
    exact .inr (.inr ⟨k, m, AList.mem_lookup_iff.mpr hentry, hexport⟩)

theorem macExport_of_mem (hc : c.Proper) (hkeyed : macs.Keyed) (h : exports c macs = .ok out)
    (he : e ∈ out) (hkey : e.1 = .mac evi mac) :
    ∃ m, macs.lookup (.mac evi mac) = some m ∧ macExport c m = .ok e := by
  obtain ⟨host, hexport⟩ | ⟨evi', hexport⟩ | ⟨k, m, hlookup, hexport⟩ := mem_exports h he
  -- only the exports of MACs have keys of this kind
  · cases (exported_of_hostExport hc hexport).1.symm.trans hkey
  · cases (exported_of_imetExport hc hexport).1.symm.trans hkey
  · have hk : k = .mac evi mac :=
      (hkeyed k m hlookup).trans ((exported_of_macExport hc hexport).1.symm.trans hkey)
    rw [hk] at hlookup
    exact ⟨m, hlookup, hexport⟩

theorem exported_of_mem (hc : c.Proper) (h : exports c macs = .ok out) (he : e ∈ out) :
    ∃ route, Exported c e route := by
  obtain ⟨host, hexport⟩ | ⟨evi, hexport⟩ | ⟨k, m, -, hexport⟩ := mem_exports h he
  · exact (exported_of_hostExport hc hexport).2
  · exact (exported_of_imetExport hc hexport).2
  · obtain ⟨-, route, hroute, -⟩ := exported_of_macExport hc hexport
    exact ⟨route, hroute⟩

theorem lookup_of_unique {key : Key} (he : e ∈ out) (hkey : e.1 = key)
    (hunique : ∀ e' ∈ out, e'.1 = key → e' = e) : out.lookup key = some e.2 := by
  cases hlookup : out.lookup key with
  | none =>
    have hne := lookup_eq_none_iff.mp hlookup e he
    rw [hkey] at hne
    simp at hne
  | some v =>
    obtain ⟨before, after, heq, -⟩ := lookup_eq_some_iff.mp hlookup
    have hmem : (key, v) ∈ out := heq ▸ mem_append_right before mem_cons_self
    rw [← hunique (key, v) hmem rfl]

theorem exports_good (hc : c.Proper) (hkeyed : macs.Keyed) (h : exports c macs = .ok out)
    {Q : ℕ → Prop} (hQ : ∀ m, macs.lookup (.mac evi mac) = some m → Q m.sequence) :
    out.Good c (.mac evi mac) Q := by
  refine ⟨fun e he => ?_, fun e he hkey => lookup_of_unique he hkey fun e' he' hkey' => ?_⟩
  · obtain ⟨route, hroute⟩ := exported_of_mem hc h he
    refine ⟨route, hroute, fun hkey => ?_⟩
    obtain ⟨m, hm, hexport⟩ := macExport_of_mem hc hkeyed h he (hroute.key.symm.trans hkey)
    obtain ⟨-, route', hroute', hsequence⟩ := exported_of_macExport hc hexport
    have hsame := hroute.announceNote.symm.trans hroute'.announceNote
    cases hsame
    rw [hsequence]
    exact hQ m hm
  · obtain ⟨m, hm, hexport⟩ := macExport_of_mem hc hkeyed h he hkey
    obtain ⟨m', hm', hexport'⟩ := macExport_of_mem hc hkeyed h he' hkey'
    rw [hm] at hm'
    cases hm'
    rw [hexport] at hexport'
    cases hexport'
    rfl

theorem lookup_of_fresh {now : ℤ} {k : Key} {m : LocalMac} (h : (fresh macs now).lookup k = some m) :
    macs.lookup k = some m := by
  have hentry : Sigma.mk k m ∈ (fresh macs now).entries := AList.mem_lookup_iff.mp h
  exact AList.mem_lookup_iff.mpr (mem_of_mem_filter hentry)

end Learned

end StarFabric.Evpn

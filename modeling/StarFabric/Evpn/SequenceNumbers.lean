import StarFabric.Evpn.Mobility

/-!
# Sequence numbers of learned MACs

A site that hears a host announces it with one more than the number of the route that it has
selected for the host. The field for the number has 32 bits, and a peer may have used them up.
-/

namespace StarFabric.Evpn

open Py ExceptFold List

/-- Every learned MAC is of a configured EVI, and its number fits into the field. -/
def Speaker.Fits (c : Config) (s : Speaker) : Prop :=
  ∀ key m, s.macs.lookup key = some m → m.evi ∈ c.evis ∧ m.sequence < 2 ^ 32

/-- The selected route of the host that a frame comes from. -/
def Event.remote (s : Speaker) : Event → Option Entry
  | .frame evi mac _ => s.routes (.mac evi mac)
  | _ => none

/-- No frame comes from a host whose selected route has the highest number. -/
def BelowTop (c : Config) (events : List Event) : Prop :=
  ∀ k (h : k < events.length), ∀ s ∈ Speaker.run c (events.take k),
    ∀ entry ∈ events[k].remote s, entry.route.sequence + 1 < 2 ^ 32

variable {c : Config} {s s' : Speaker}

theorem Speaker.Fits.learned {evi : ℕ} {mac : Octets 6} (h : s.Fits c) (hevi : evi ∈ c.evis)
    (hbelow : ∀ entry ∈ s.routes (.mac evi mac), entry.route.sequence + 1 < 2 ^ 32) (now : ℤ) :
    (s.learned evi mac now).Fits c := by
  intro key m hm
  have hold := h key
  by_cases hkey : key = .mac evi mac <;>
    grind [Speaker.learned, AList.lookup_insert, AList.lookup_insert_ne]

theorem Speaker.Fits.step {e : Event} (h : s.Fits c) (hstep : s.step c e = some s')
    (hbelow : ∀ entry ∈ e.remote s, entry.route.sequence + 1 < 2 ^ 32) : s'.Fits c := by
  rcases step_macs hstep with hmacs | ⟨now, hmacs⟩ | ⟨evi, mac, now, rfl, hevi, rfl⟩
  · exact fun key m hm => h key m (hmacs ▸ hm)
  · exact fun key m hm => h key m (lookup_of_fresh (hmacs ▸ hm))
  · exact h.learned hevi hbelow now

theorem fits_of_run {events : List Event} (hbelow : BelowTop c events)
    (hrun : Speaker.run c events = some s) : s.Fits c := by
  induction events using reverseRecOn generalizing s with
  | nil =>
    cases hrun
    exact nofun
  | append_singleton events e ih =>
    unfold Speaker.run at hrun
    rw [foldlM_append, Option.bind_eq_bind, Option.bind_eq_some_iff] at hrun
    obtain ⟨s₀, hrun, hstep⟩ := hrun
    have hbefore : BelowTop c events := by
      intro k hk s hs entry hentry
      have htake : (events ++ [e]).take k = events.take k := take_append_of_le_length hk.le
      exact hbelow k (by simp; omega) s (by rwa [htake]) entry (by rwa [getElem_append_left hk])
    refine (ih hbefore hrun).step (by simpa using hstep) ?_
    simpa using hbelow events.length (by simp) s₀ (by rw [take_left]; exact hrun)

theorem macExport_ok {m : LocalMac} {out : Exports} (hstart : exports c ∅ = .ok out)
    (hevi : m.evi ∈ c.evis) (hsequence : m.sequence < 2 ^ 32) : ∃ e, macExport c m = .ok e := by
  obtain ⟨_, _, h⟩ := bind_eq_ok.mp hstart
  obtain ⟨imets, himets, _⟩ := bind_eq_ok.mp h
  obtain ⟨imet, -, himet⟩ := (mapM_ok himets).2 _ hevi
  unfold imetExport at himet
  unfold macExport
  cases hservice : c.service m.evi with
  | none =>
    rw [hservice] at himet
    cases himet
  | some service =>
    rw [hservice] at himet
    obtain ⟨_, hannounced, -⟩ := bind_eq_ok.mp himet
    have hlt := evi_lt_of_l2Update _ _ _ hannounced
    dsimp only
    rw [l2Update_mac_eq _ _ _ hlt hsequence, l2Update_mac_withdraw_eq _ _ _ hlt]
    exact ⟨_, rfl⟩

/-- A speaker whose configuration can be exported can export what it has learned at any time, if no
frame comes from a host for which the highest number has been announced. -/
theorem learned_macs_exported (c : Config) (out : Exports) (hstart : exports c ∅ = .ok out)
    (events : List Event) (hbelow : BelowTop c events) (s : Speaker)
    (hrun : Speaker.run c events = some s) (now : ℤ) :
    (∀ key, ∀ m ∈ s.macs.lookup key, m.sequence < 2 ^ 32) ∧
      ∃ exported, exports c (fresh s.macs now) = .ok exported := by
  have hfits := fits_of_run hbelow hrun
  refine ⟨fun key m hm => (hfits key m hm).2, ?_⟩
  obtain ⟨hosts, hhosts, h⟩ := bind_eq_ok.mp hstart
  obtain ⟨imets, himets, -⟩ := bind_eq_ok.mp h
  cases hlearned : (fresh s.macs now).entries.mapM fun e => macExport c e.2 with
  | ok learned =>
    unfold exports
    rw [hhosts, himets, hlearned]
    exact ⟨_, rfl⟩
  | error e =>
    obtain ⟨⟨key, m⟩, hentry, herror⟩ := mapM_eq_error hlearned
    obtain ⟨hevi, hsequence⟩ := hfits key m (lookup_of_fresh (AList.mem_lookup_iff.mpr hentry))
    obtain ⟨_, hok⟩ := macExport_ok hstart hevi hsequence
    cases hok.symm.trans herror

/-- The peer announces the roamer with a number, and then the roamer is heard here. -/
def heard (sequence : ℕ) : List Event :=
  let octets := do
    return (← openMessage (lastOctet 3 1)) ++ (← message 4 []) ++
      (← l2Update (lastOctet 3 1) 100 (meshSite 2) (meshSite 2) (some roamer) sequence false)
  [.connect (meshSite 2), .arrive (meshSite 2) (octets.toOption.getD []), .read (meshSite 2) 0,
    .read (meshSite 2) 0, .read (meshSite 2) 0, .frame 100 roamer 0]

theorem learned_macs_exported_roamer :
    ∃ s ∈ Speaker.run (mesh.config (meshSite 1)) (heard 5),
      ∃ exported, exports (mesh.config (meshSite 1)) (fresh s.macs 0) = .ok exported := by
  obtain ⟨out, hstart⟩ : ∃ out, exports (mesh.config (meshSite 1)) ∅ = .ok out :=
    exists_ok_of_isSome (by decide +kernel)
  obtain ⟨s, hrun⟩ : ∃ s, Speaker.run (mesh.config (meshSite 1)) (heard 5) = some s :=
    Option.isSome_iff_exists.mp (by decide +kernel)
  exact ⟨s, hrun, (learned_macs_exported _ out hstart (heard 5)
    (by unfold BelowTop; decide +kernel) s hrun 0).2⟩

/-- After the highest number the next one does not fit, and the speaker stops. -/
theorem highest_number_stops_speaker :
    ∃ s ∈ Speaker.run (mesh.config (meshSite 1)) (heard (2 ^ 32 - 1)),
      (exports (mesh.config (meshSite 1)) (fresh s.macs 0)).isOk = false ∧
        (s.step (mesh.config (meshSite 1)) (.tick 0)).isNone = true := by
  decide +kernel

end StarFabric.Evpn

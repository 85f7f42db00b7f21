import StarFabric.Evpn.Decoding
import StarFabric.Evpn.PeerMachine

/-!
# Peers do not reach each other's routes

A table holds only what the import filter admits (`Entry.Admitted`), and the selected routes are the
selection from the tables after every event (`Speaker.Sound`). Routes of another peer are never
admitted, and the table of a peer depends on the events of this peer alone. Both together keep a
peer from the routes of another one (`peers_isolated`).
-/

namespace StarFabric.Evpn

open Py Wire ExceptFold List

/-! ### What a table holds -/

/-- What the import filter has checked about an entry of the table of a peer. -/
structure Entry.Admitted (entry : Entry) (c : Config) (peer : Address) (key : Key) : Prop where
  fromPeer : entry.peer = peer
  nexthop : entry.route.nexthop = peer
  host : ∀ host, key = .host host → ∃ expected locator, c.imports.lookup host = some expected ∧
    expected.peer = peer ∧ expected.locator = some locator ∧ locator.contains entry.route.sid = true
  imet : ∀ evi originator, key = .imet evi originator → originator = peer

def Table.Admitted (c : Config) (peer : Address) (table : Table) : Prop :=
  ∀ key entry, table key = some entry → entry.Admitted c peer key

section Tables

variable {c : Config} {peer : Address} {table table' : Table}

variable (h : table.Admitted c peer)
include h

theorem Table.Admitted.update {key : Key} {value : Option Entry}
    (hvalue : ∀ entry, value = some entry → entry.Admitted c peer key) :
    Table.Admitted c peer (Function.update table key value) := by
  intro k entry hentry
  by_cases hk : k = key
  · subst hk
    rw [Function.update_self] at hentry
    exact hvalue entry hentry
  · rw [Function.update_of_ne hk] at hentry
    exact h k entry hentry

theorem Table.Admitted.erase (key : Key) : Table.Admitted c peer (Function.update table key none) :=
  h.update nofun

variable {route : Route}

theorem Table.Admitted.accept {locator : Except Error Network}
    (hroute : ∀ network, locator = .ok network → network.contains route.sid = true → route.nexthop = peer → Entry.Admitted ⟨route, peer⟩ c peer route.key)
    (haccept : accept peer locator table route = .ok table') : table'.Admitted c peer := by
  unfold Evpn.accept at haccept
  split_ifs at haccept with hnexthop
  · cases haccept
    exact h.erase _
  · obtain ⟨network, hnetwork, haccept⟩ := bind_eq_ok.mp haccept
    split_ifs at haccept with hcontains
    · cases haccept
      refine h.update fun entry hentry => ?_
      cases hentry
      exact hroute network hnetwork hcontains (not_not.mp hnexthop)
    · cases haccept
      exact h.erase _

theorem Table.Admitted.importRoute (hproper : route.Proper)
    (himport : importRoute c peer table route = .ok table') :
    table'.Admitted c peer := by
  unfold Evpn.importRoute at himport
  cases hkey : route.key with
  | host host =>
    rw [hkey] at himport
    dsimp only at himport
    cases hlookup : c.imports.lookup host with
    | none =>
      rw [hlookup] at himport
      cases himport
      exact h
    | some expected =>
      rw [hlookup] at himport
      dsimp only at himport
      split_ifs at himport with hpeer
      · cases himport
        exact h
      · refine h.accept (fun network hnetwork hcontains hnexthop => ?_) himport
        rw [hkey]
        refine ⟨rfl, hnexthop, ?_, nofun⟩
        rintro _ ⟨⟩
        cases hlocator : expected.locator with
        | none =>
          rw [hlocator] at hnetwork
          cases hnetwork
        | some locator =>
          rw [hlocator] at hnetwork
          cases hnetwork
          exact ⟨expected, network, hlookup, not_not.mp hpeer, hlocator, hcontains⟩
  | mac evi mac =>
    rw [hkey] at himport
    dsimp only at himport
    split_ifs at himport
    · refine h.accept (fun network hnetwork hcontains hnexthop => ?_) himport
      rw [hkey]
      exact ⟨rfl, hnexthop, nofun, nofun⟩
    · cases himport
      exact h
  | imet evi originator =>
    rw [hkey] at himport
    dsimp only at himport
    split_ifs at himport
    · refine h.accept (fun network hnetwork hcontains hnexthop => ?_) himport
      rw [hkey]
      refine ⟨rfl, hnexthop, nofun, ?_⟩
      rintro _ _ ⟨⟩
      exact (hproper.originator evi originator hkey).trans hnexthop
    · cases himport
      exact h

theorem Table.Admitted.onUpdate {body : Bytes} (hupdate : onUpdate c peer table body = .ok table') :
    table'.Admitted c peer := by
  obtain ⟨⟨routes, withdrawn⟩, hread, hfold⟩ := bind_eq_ok.mp hupdate
  obtain ⟨_, _, _, _, -, -, -, -, -, hproper⟩ := readUpdate_eq_ok hread
  dsimp only at hfold
  -- withdrawals only remove entries
  have hwithdrawn : Table.Admitted c peer
      (withdrawn.foldl (fun table key => Function.update table key none) table) := by
    clear hupdate hread hfold
    induction withdrawn generalizing table with
    | nil => exact h
    | cons key withdrawn ih => exact ih (h.erase key)
  generalize withdrawn.foldl (fun table key => Function.update table key none) table = start
    at hfold hwithdrawn
  clear hread
  induction routes generalizing start with
  | nil =>
    cases hfold
    exact hwithdrawn
  | cons route routes ih =>
    obtain ⟨next, hnext, hfold⟩ := foldlM_ok_cons.mp hfold
    obtain ⟨hroute, hproper⟩ := forall_mem_cons.mp hproper
    exact ih hproper next hfold (hwithdrawn.importRoute hroute hnext)

end Tables

/-! ### The invariant of a run -/

/-- The table of a peer is there once the session is established, and has been admitted. -/
structure PeerState.Sound (c : Config) (peer : Address) (x : PeerState) : Prop where
  idle : (∀ session, x.session = some session → session.phase ≠ .established) → x.table = none
  admitted : ∀ table, x.table = some table → table.Admitted c peer

section Sound

variable {c : Config} {peer : Address}

theorem PeerState.sound_none : PeerState.Sound c peer ⟨none, none⟩ :=
  ⟨fun _ => rfl, nofun⟩

variable {x : PeerState}

theorem PeerState.Sound.handle (hx : x.Sound c peer) {session : Session}
    (hsession : x.session = some session) {kind : UInt8} {body rest : Bytes} {phase : Phase}
    {table : Option Table}
    (h : PeerState.handle c peer x.table session.phase kind body = .ok (phase, table)) :
    PeerState.Sound c peer ⟨some ⟨phase, rest⟩, table⟩ := by
  unfold PeerState.handle at h
  cases hphase : session.phase with
  | openSent =>
    rw [hphase] at h
    obtain ⟨-, h⟩ := ite_raise_eq_ok.mp h
    obtain ⟨hold, -, h⟩ := bind_eq_ok.mp h
    cases h
    have hnone : x.table = none := by
      refine hx.idle fun session' hsession' hestablished => ?_
      rw [hsession] at hsession'
      cases hsession'
      rw [hphase] at hestablished
      cases hestablished
    exact ⟨fun _ => hnone, fun table htable => absurd (hnone.symm.trans htable).symm
      (Option.some_ne_none table)⟩
  | openConfirm =>
    rw [hphase] at h
    obtain ⟨-, h⟩ := ite_raise_eq_ok.mp h
    cases h
    refine ⟨fun hidle => absurd rfl (hidle _ rfl), fun table htable => ?_⟩
    cases htable
    exact nofun
  | established =>
    rw [hphase] at h
    dsimp only at h
    split_ifs at h
    · cases h
      exact ⟨fun hidle => absurd rfl (hidle _ rfl), hx.admitted⟩
    · cases htable : x.table with
      | none =>
        rw [htable] at h
        cases h
      | some old =>
        rw [htable] at h
        obtain ⟨new, hnew, h⟩ := bind_eq_ok.mp h
        cases h
        refine ⟨fun hidle => absurd rfl (hidle _ rfl), fun table htable' => ?_⟩
        cases htable'
        exact (hx.admitted old htable).onUpdate hnew

theorem PeerState.Sound.step (hx : x.Sound c peer) (e : Event) :
    (x.step c peer e).Sound c peer := by
  cases e with
  | connect _ =>
    unfold PeerState.step
    dsimp only
    split_ifs with hrefused
    · exact hx
    · have hnone : x.session = none := by
        rw [not_or, Option.not_isSome_iff_eq_none] at hrefused
        exact hrefused.2
      refine ⟨fun _ => hx.idle fun session hsession => ?_, hx.admitted⟩
      rw [hnone] at hsession
      cases hsession
  | arrive _ octets =>
    refine ⟨fun hidle => hx.idle fun session hsession => ?_, hx.admitted⟩
    refine hidle { session with received := session.received ++ octets } ?_
    show x.session.map _ = _
    rw [hsession]
    rfl
  | read _ _ =>
    unfold PeerState.step
    cases hsession : x.session with
    | none => exact hx
    | some session =>
      dsimp only
      cases receive session.received with
      | error e => exact sound_none
      | ok message =>
        cases message with
        | none => exact hx
        | some message =>
          dsimp only
          cases hhandle : PeerState.handle c peer x.table session.phase message.1 message.2.1 with
          | error e => exact sound_none
          | ok result => exact hx.handle hsession hhandle
  | fail _ =>
    unfold PeerState.step
    dsimp only
    split_ifs
    · exact sound_none
    · exact hx
  | keepalive _ | send _ | frame _ _ _ | tick _ => exact hx

end Sound

/-- **What holds throughout a run.** -/
structure Speaker.Sound (c : Config) (s : Speaker) : Prop where
  selected : s.routes = select c s.peerRoutes
  peers : ∀ q, (s.peerState q).Sound c q

section Run

variable {c : Config} {s s' : Speaker}

variable {peer : Address}

theorem select_update_empty {peerRoutes : Address → Option Table} (h : peerRoutes peer = none) :
    select c (Function.update peerRoutes peer (some fun _ => none)) = select c peerRoutes := by
  funext key
  unfold select
  congr 1
  refine map_congr_left fun q _ => ?_
  by_cases hq : q = peer
  · subst hq
    rw [Function.update_self, h]
    rfl
  · rw [Function.update_of_ne hq]

variable {e : Event}

theorem selected_step (hs : s.Sound c) (h : s.step c e = some s') :
    s'.routes = select c s'.peerRoutes := by
  obtain hnew | ⟨hroutes, htables | ⟨peer, session, hsession, hphase, htables⟩⟩ := step_reselects h
  · exact hnew
  · rw [hroutes, htables, hs.selected]
  · -- there was no table before the session was established
    have hnone : s.peerRoutes peer = none := by
      refine (hs.peers peer).idle fun session' hsession' => ?_
      cases hsession.symm.trans hsession'
      rw [hphase]
      nofun
    rw [hroutes, htables, select_update_empty hnone, hs.selected]

theorem Speaker.Sound.step (hs : s.Sound c) (h : s.step c e = some s') : s'.Sound c := by
  refine ⟨selected_step hs h, fun q => ?_⟩
  rw [peerState_step h q]
  split_ifs
  · exact (hs.peers q).step e
  · exact hs.peers q

theorem Speaker.sound_initial (c : Config) : Speaker.initial.Sound c := by
  refine ⟨?_, fun q => PeerState.sound_none⟩
  funext key
  refine (Champion.best_eq_none fun candidate hcandidate => ?_).symm
  obtain ⟨q, -, rfl⟩ := mem_map.mp hcandidate
  rfl

theorem Speaker.sound_run {events : List Event} (h : Speaker.run c events = some s) :
    s.Sound c := by
  induction events using reverseRecOn generalizing s with
  | nil =>
    cases h
    exact Speaker.sound_initial c
  | append_singleton events e ih =>
    unfold Speaker.run at h
    rw [foldlM_append] at h
    obtain ⟨s₁, hs₁, h⟩ := Option.bind_eq_some_iff.mp h
    obtain ⟨s₂, hs₂, h⟩ := Option.bind_eq_some_iff.mp h
    cases h
    exact (ih hs₁).step hs₂

end Run

section Isolation

variable {c : Config} {s s' : Speaker}

variable {key : Key}

theorem Speaker.Sound.admitted (hs : s.Sound c) {entry : Entry} (h : s.routes key = some entry) :
    ∃ q, (s.peerRoutes q).isSome = true ∧ entry.Admitted c q key := by
  rw [hs.selected] at h
  obtain ⟨q, -, hq⟩ := mem_map.mp (Champion.mem_of_best h)
  obtain ⟨table, htable, hentry⟩ := Option.bind_eq_some_iff.mp hq
  exact ⟨q, Option.isSome_iff_exists.mpr ⟨table, htable⟩,
    (hs.peers q).admitted table htable key entry hentry⟩

variable {p : Address}

theorem Speaker.Sound.absent (hs : s.Sound c) (hnever : ∀ entry, ¬ Entry.Admitted entry c p key) :
    (s.peerRoutes p).bind (fun table => table key) = none := by
  rw [Option.bind_eq_none_iff]
  intro table htable
  cases hentry : table key with
  | none => rfl
  | some entry =>
    exact absurd ((hs.peers p).admitted table htable key entry hentry) (hnever entry)

theorem peerRoutes_of_filter {events events' : List Event} {q : Address} (hpq : q ≠ p)
    (hevents : events'.filter (fun e => e.peer ≠ some p) = events.filter fun e => e.peer ≠ some p)
    (h : Speaker.run c events = some s) (h' : Speaker.run c events' = some s') :
    s'.peerRoutes q = s.peerRoutes q := by
  -- an event of `q` is not one of `p`
  have hfilter : ∀ l : List Event, l.filter (fun e => e.peer = some q) =
      (l.filter fun e => e.peer ≠ some p).filter fun e => e.peer = some q := by
    intro l
    rw [filter_filter]
    refine filter_congr fun e _ => ?_
    by_cases he : e.peer = some q
    · have hne : e.peer ≠ some p := fun h => hpq (Option.some.inj (he.symm.trans h))
      simp [he, hpq]
    · simp [he]
  have hstate : s'.peerState q = s.peerState q := by
    rw [peerState_run h' q, peerState_run h q, hfilter events', hfilter events, hevents]
  exact congrArg PeerState.table hstate

theorem selected_of_filter {events events' : List Event}
    (hnever : ∀ entry, ¬ Entry.Admitted entry c p key)
    (hevents : events'.filter (fun e => e.peer ≠ some p) = events.filter fun e => e.peer ≠ some p)
    (h : Speaker.run c events = some s) (h' : Speaker.run c events' = some s') :
    s'.routes key = s.routes key := by
  have hs := Speaker.sound_run h
  have hs' := Speaker.sound_run h'
  rw [hs.selected, hs'.selected]
  unfold select
  congr 1
  refine map_congr_left fun q _ => ?_
  by_cases hq : q = p
  · rw [hq, hs.absent hnever, hs'.absent hnever]
  · rw [peerRoutes_of_filter hq hevents h h']

/-- **Peers are isolated.** As long as the process runs:

* a selected Type-5 route comes from the peer that its prefix is assigned to, which is its next hop,
  and its SID is in the configured locator;
* with other events of a peer `p`, the selected Type-5 routes of prefixes that are not assigned to
  `p` and the inclusive-multicast routes of other peers are the same;
* no route of a peer without a session is selected. -/
theorem peers_isolated {events : List Event} (h : Speaker.run c events = some s) :
    (∀ host entry, s.routes (.host host) = some entry →
      ∃ expected locator, c.imports.lookup host = some expected ∧ entry.peer = expected.peer ∧
        entry.route.nexthop = expected.peer ∧ expected.locator = some locator ∧
        locator.contains entry.route.sid = true) ∧
    (∀ p events' s', Speaker.run c events' = some s' →
      (events'.filter fun e => e.peer ≠ some p) = (events.filter fun e => e.peer ≠ some p) →
      (∀ host, (∀ expected, c.imports.lookup host = some expected → expected.peer ≠ p) →
        s'.routes (.host host) = s.routes (.host host)) ∧
      ∀ evi q, q ≠ p → s'.routes (.imet evi q) = s.routes (.imet evi q)) ∧
    ∀ p, s.sessions p = none → ∀ key entry, s.routes key = some entry → entry.peer ≠ p := by
  have hs := Speaker.sound_run h
  refine ⟨fun host entry hentry => ?_, fun p events' s' h' hevents => ?_,
    fun p hsession key entry hentry hp => ?_⟩
  · obtain ⟨q, -, hadmitted⟩ := hs.admitted hentry
    obtain ⟨expected, locator, hlookup, hpeer, hlocator, hcontains⟩ := hadmitted.host host rfl
    exact ⟨expected, locator, hlookup, hadmitted.fromPeer.trans hpeer.symm,
      hadmitted.nexthop.trans hpeer.symm, hlocator, hcontains⟩
  · refine ⟨fun host hassigned => ?_, fun evi q hq => ?_⟩
    · refine selected_of_filter (fun entry hadmitted => ?_) hevents h h'
      obtain ⟨expected, _, hlookup, hpeer, -⟩ := hadmitted.host host rfl
      exact hassigned expected hlookup hpeer
    · refine selected_of_filter (fun entry hadmitted => ?_) hevents h h'
      exact hq (hadmitted.imet evi q rfl)
  · obtain ⟨q, htable, hadmitted⟩ := hs.admitted hentry
    have hqp : q = p := hadmitted.fromPeer.symm.trans hp
    have hnone : s.peerRoutes q = none := by
      refine (hs.peers q).idle fun session hsome => ?_
      rw [hqp] at hsome
      exact absurd (hsession.symm.trans hsome).symm (Option.some_ne_none session)
    rw [hnone] at htable
    cases htable

def gatewayConfig : Config where
  routerId := lastOctet 3 1
  address := lastOctet 15 1
  sid := lastOctet 15 17
  peers := [lastOctet 15 2, lastOctet 15 3]
  imports := [(lastOctet 3 10, ⟨lastOctet 15 2, some ⟨lastOctet 15 2, 64⟩⟩)]
  exports := []
  exportSids := []
  l2 := []

def gatewayEvents : List Event :=
  let peer := lastOctet 15 2
  let arrives := fun built : Except Error Bytes => Event.arrive peer (built.toOption.getD [])
  [.connect peer, arrives (openMessage (lastOctet 3 2)), .read peer 0, arrives (message 4 []),
    .read peer 0, arrives (update (lastOctet 3 2) (lastOctet 3 10) 32 peer (lastOctet 15 33) false),
    .read peer 0]

theorem peers_isolated_gateway :
    ∃ s entry, Speaker.run gatewayConfig gatewayEvents = some s ∧
      s.routes (.host (lastOctet 3 10)) = some entry ∧ entry.peer = lastOctet 15 2 := by
  have hselected : ((Speaker.run gatewayConfig gatewayEvents).bind fun s =>
      s.routes (.host (lastOctet 3 10))).isSome = true := by decide +kernel
  obtain ⟨entry, hentry⟩ := Option.isSome_iff_exists.mp hselected
  obtain ⟨s, hrun, hroute⟩ := Option.bind_eq_some_iff.mp hentry
  obtain ⟨expected, locator, hlookup, hpeer, -⟩ := (peers_isolated hrun).1 _ entry hroute
  refine ⟨s, entry, hrun, hroute, hpeer.trans ?_⟩
  cases hlookup
  rfl

/-- **The interleaving of the peers does not matter.** After two runs in which every single peer
does the same, the same routes are selected, however the events of the peers, the learned frames and
the ticks came one after the other. -/
theorem routes_of_interleaving {events events' : List Event} (h : Speaker.run c events = some s)
    (h' : Speaker.run c events' = some s')
    (hpeers : ∀ q, events'.filter (fun e => e.peer = some q) =
      events.filter fun e => e.peer = some q) : s'.routes = s.routes := by
  have htables : s'.peerRoutes = s.peerRoutes := by
    funext q
    refine congrArg PeerState.table (?_ : s'.peerState q = s.peerState q)
    rw [peerState_run h' q, peerState_run h q, hpeers q]
  rw [(Speaker.sound_run h').selected, (Speaker.sound_run h).selected, htables]

theorem routes_of_interleaving_gateway :
    ∃ s s', Speaker.run gatewayConfig (.tick 0 :: gatewayEvents) = some s ∧
      Speaker.run gatewayConfig (gatewayEvents ++ [.tick 0]) = some s' ∧ s'.routes = s.routes := by
  obtain ⟨s, hs⟩ := Option.isSome_iff_exists.mp (by decide +kernel :
    (Speaker.run gatewayConfig (.tick 0 :: gatewayEvents)).isSome)
  obtain ⟨s', hs'⟩ := Option.isSome_iff_exists.mp (by decide +kernel :
    (Speaker.run gatewayConfig (gatewayEvents ++ [.tick 0])).isSome)
  exact ⟨s, s', hs, hs', routes_of_interleaving hs hs' fun q => by simp [Event.peer]⟩

end Isolation

end StarFabric.Evpn

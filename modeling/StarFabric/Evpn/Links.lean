import StarFabric.Evpn.Exports
import StarFabric.Evpn.Isolation

/-!
# Sites and the links between them

What holds in a fabric whose sessions stay up, for one MAC. When the messages on a link have been
read, the table of the reader has what the sender advertised (`Link`). The sequence numbers of a
site satisfy a condition `Q` that only has to be stable under frames of the host
(`Fabric.Inv.step`, `Fabric.Inv.run`).
-/

namespace StarFabric.Evpn

open Py Wire ExceptFold List Option
open Function (update_self update_of_ne)

/-- The configurations of the sites fit together. -/
structure Fabric.Proper (f : Fabric) : Prop where
  address : ∀ i ∈ f.sites, (f.config i).address = i
  peers : ∀ i ∈ f.sites, ∀ j, j ∈ (f.config i).peers ↔ j ∈ f.sites ∧ j ≠ i
  config : ∀ i ∈ f.sites, (f.config i).Proper

/-- The octets on a link say `notes`, and these bring the table of the reader to what the sender
has advertised. A reader without the EVI drops what is announced. -/
structure Link.Carries (c d : Config) (evi : ℕ) (mac : Octets 6) (Q : ℕ → Prop) (octets : Bytes)
    (table : Table) (advertised : Exports) (notes : List Note) : Prop where
  stream : Stream octets notes
  saidGood : ∀ note ∈ notes, note.Good c (.mac evi mac) Q
  advertisedGood : advertised.Good c (.mac evi mac) Q
  mirror : evi ∈ d.evis → Mirror.replay (Note.on c.address (.mac evi mac))
    (table (.mac evi mac)) notes = advertised.entry c.address (.mac evi mac)
  tableGood : evi ∈ d.evis → ∀ entry, table (.mac evi mac) = some entry → Q entry.route.sequence

/-- A link from the site of `c` to the site of `d`: what the reader holds of the sender, what the
sender has advertised, and what it has written and the network has not taken. -/
def Link (c d : Config) (evi : ℕ) (mac : Octets 6) (Q : ℕ → Prop) (x : PeerState)
    (advertised : Option Exports) (outgoing : Bytes) : Prop :=
  ∃ received table adv notes, x = ⟨some ⟨.established, received⟩, some table⟩ ∧
    advertised = some adv ∧ Link.Carries c d evi mac Q (received ++ outgoing) table adv notes

structure Speaker.Inv (c : Config) (evi : ℕ) (mac : Octets 6) (Q : ℕ → Prop) (s : Speaker) :
    Prop where
  sound : s.Sound c
  idle : ∀ p ∉ c.peers, s.sessions p = none
  keyed : s.macs.Keyed
  learned : ∀ m, s.macs.lookup (.mac evi mac) = some m → Q m.sequence
  snapshot : ∀ out, s.snapshot = some out → out.Good c (.mac evi mac) Q

structure Fabric.Inv (f : Fabric) (evi : ℕ) (mac : Octets 6) (Q : Address → ℕ → Prop) (net : Net) :
    Prop where
  site : ∀ i ∈ f.sites, (net i).Inv (f.config i) evi mac (Q i)
  link : ∀ i ∈ f.sites, ∀ j ∈ f.sites, j ≠ i → Link (f.config i) (f.config j) evi mac (Q i)
    ((net j).peerState i) ((net i).advertised j) ((net i).outgoing j)

section Start

variable {f : Fabric} {evi : ℕ} {mac : Octets 6}

theorem changes_nil (new : Exports) : changes [] new = new.flatMap fun e => e.2.1 := by
  unfold changes
  rw [filter_nil, flatMap_nil, nil_append, filter_eq_self.mpr]
  intro e _
  rfl

theorem link_start {c d : Config} (hc : c.Proper) {exported : Exports}
    (h : exports c ∅ = .ok exported) {Q : ℕ → Prop} :
    Link c d evi mac Q ⟨some ⟨.established, []⟩, some fun _ => none⟩ (some exported)
      (exported.flatMap fun e => e.2.1) := by
  have hnil : Exports.Good c (.mac evi mac) Q [] :=
    ⟨nofun, nofun⟩
  have hgood : exported.Good c (.mac evi mac) Q :=
    exports_good hc (fun k m hm => by cases hm) h fun m hm => by cases hm
  obtain ⟨notes, hstream, hnotes, hmirror⟩ := changes_mirror hnil hgood c.address
  rw [changes_nil] at hstream
  exact ⟨[], _, exported, notes, rfl, rfl, hstream, hnotes, hgood, fun _ => hmirror,
    fun _ entry hentry => by cases hentry⟩

theorem startSite_sound (i : Address) (exported : Exports) :
    (f.startSite i exported).Sound (f.config i) := by
  refine ⟨?_, fun p => ?_⟩
  · funext key
    refine (Champion.best_eq_none fun candidate hcandidate => ?_).symm
    obtain ⟨p, -, rfl⟩ := mem_map.mp hcandidate
    show Option.bind (if p ∈ f.sites ∧ p ≠ i then some fun _ => none else none) _ = none
    split_ifs <;> rfl
  · show PeerState.Sound (f.config i) p
      ⟨if p ∈ f.sites ∧ p ≠ i then _ else none, if p ∈ f.sites ∧ p ≠ i then _ else none⟩
    split_ifs
    · refine ⟨fun hidle => absurd rfl (hidle _ rfl), fun table htable => ?_⟩
      cases htable
      exact nofun
    · exact PeerState.sound_none

theorem Fabric.Proper.inv_start (hf : f.Proper) {net : Net} (h : f.start = some net)
    (Q : Address → ℕ → Prop) : f.Inv evi mac Q net := by
  unfold Fabric.start at h
  split_ifs at h with hexports
  cases h
  refine ⟨fun i hi => ⟨startSite_sound i _, ?_, ?_, ?_, ?_⟩, fun i hi j hj hne => ?_⟩
  · intro p hp
    exact if_neg fun hmem => hp ((hf.peers i hi p).mpr hmem)
  · exact nofun
  · exact nofun
  · exact nofun
  · obtain ⟨exported, hexported⟩ := exists_ok_of_isSome (hexports i hi)
    have hlink : Link (f.config i) (f.config j) evi mac (Q i) _ _ _ :=
      link_start (hf.config i hi) hexported
    show Link _ _ _ _ _ ⟨if i ∈ f.sites ∧ i ≠ j then _ else none,
      if i ∈ f.sites ∧ i ≠ j then _ else none⟩ (if j ∈ f.sites ∧ j ≠ i then _ else none)
      (if j ∈ f.sites ∧ j ≠ i then _ else [])
    rw [if_pos ⟨hi, hne.symm⟩, if_pos ⟨hi, hne.symm⟩, if_pos ⟨hj, hne⟩, if_pos ⟨hj, hne⟩, hexported]
    exact hlink

end Start

/-! ### What happens on a link -/

section

variable {d : Config} {peer : Address} {evi : ℕ} {mac : Octets 6} {table : Table}

theorem admit_eq_update {locator : Except Error Network} {network : Network}
    (h : locator = .ok network) (table : Table) (route : Route) :
    ∃ value, accept peer locator table route = .ok (Function.update table route.key value) ∧
      (route.nexthop = peer → network.contains route.sid = true → value = some ⟨route, peer⟩) := by
  subst h
  unfold accept
  split_ifs with hnexthop
  · exact ⟨none, rfl, fun h => absurd h hnexthop⟩
  · cases hcontains : network.contains route.sid with
    | true =>
      refine ⟨some ⟨route, peer⟩, ?_, fun _ _ => rfl⟩
      exact bind_eq_ok.mpr ⟨network, rfl, if_pos hcontains⟩
    | false =>
      refine ⟨none, ?_, nofun⟩
      exact bind_eq_ok.mpr ⟨network, rfl, if_neg (by rw [hcontains]; decide)⟩

variable {route : Route}

theorem importRoute_of_mac (hkey : route.key = .mac evi mac) (hnexthop : route.nexthop = peer)
    (hsid : (Network.mk peer 64).contains route.sid = true) (hevi : evi ∈ d.evis) (table : Table) :
    importRoute d peer table route =
      .ok (Function.update table (.mac evi mac) (some ⟨route, peer⟩)) := by
  have haccept : accept peer (.ok ⟨peer, 64⟩) table route = _ ∧ _ :=
    (admit_eq_update rfl table route).choose_spec
  rw [haccept.2 hnexthop hsid, hkey] at haccept
  unfold importRoute
  rw [hkey]
  dsimp only
  rw [if_neg (not_not.mpr hevi)]
  exact haccept.1

theorem importRoute_of_ne (hd : d.Proper) (hkey : route.key ≠ .mac evi mac) (table : Table) :
    ∃ table', importRoute d peer table route = .ok table' ∧
      table' (.mac evi mac) = table (.mac evi mac) := by
  have haccept : ∀ {locator : Except Error Network} {network : Network}, locator = .ok network →
      ∃ table', accept peer locator table route = .ok table' ∧
        table' (.mac evi mac) = table (.mac evi mac) := by
    intro locator network h
    obtain ⟨value, heq, -⟩ : ∃ value, accept peer locator table route = _ ∧ _ :=
      admit_eq_update h table route
    exact ⟨_, heq, update_of_ne hkey.symm _ _⟩
  unfold importRoute
  cases route.key with
  | host host =>
    dsimp only
    cases hlookup : d.imports.lookup host with
    | none => exact ⟨table, rfl, rfl⟩
    | some expected =>
      obtain ⟨before, after, heq, -⟩ := lookup_eq_some_iff.mp hlookup
      have hlocator := hd.locators (host, expected) (heq ▸ mem_append_right before mem_cons_self)
      obtain ⟨network, hnetwork⟩ := isSome_iff_exists.mp hlocator
      dsimp only at hnetwork ⊢
      split_ifs
      · exact ⟨table, rfl, rfl⟩
      · rw [hnetwork]
        exact haccept rfl
  | mac evi' mac' =>
    dsimp only
    split_ifs
    · exact haccept rfl
    · exact ⟨table, rfl, rfl⟩
  | imet evi' originator =>
    dsimp only
    split_ifs
    · exact haccept rfl
    · exact ⟨table, rfl, rfl⟩

variable {c : Config} {Q : ℕ → Prop} {note : Note} {body : Bytes}

theorem onUpdate_of_saidBy (hd : d.Proper) (hc : c.address = peer)
    (hgood : note.Good c (.mac evi mac) Q) (hsaid : note.SaidBy 2 body) (table : Table) :
    ∃ table', onUpdate d peer table body = .ok table' ∧
      (table' (.mac evi mac) = (note.on peer (.mac evi mac)).getD (table (.mac evi mac)) ∨
        evi ∉ d.evis ∧ table' (.mac evi mac) = table (.mac evi mac)) := by
  cases hsaid with
  | @announce route _ hread =>
    have hone : ∀ {table'}, importRoute d peer table route = .ok table' →
        onUpdate d peer table body = .ok table' := by
      intro table' himport
      refine bind_eq_ok.mpr ⟨_, hread, ?_⟩
      exact foldlM_ok_cons.mpr ⟨table', himport, rfl⟩
    obtain ⟨hnexthop, hsid, -⟩ := hgood route rfl
    rw [hc] at hnexthop hsid
    by_cases hkey : route.key = .mac evi mac
    · by_cases hevi : evi ∈ d.evis
      · have htype : route.key.routeType ≠ 5 := by
          rw [hkey]
          exact (show 2 ≠ 5 by decide)
        have hon : (Note.announce route).on peer (.mac evi mac) = some (some ⟨route, peer⟩) :=
          if_pos hkey
        refine ⟨_, hone (importRoute_of_mac hkey hnexthop (hsid htype) hevi table), .inl ?_⟩
        rw [update_self, hon]
        rfl
      · refine ⟨table, hone ?_, .inr ⟨hevi, rfl⟩⟩
        unfold importRoute
        rw [hkey]
        exact if_pos hevi
    · have hon : (Note.announce route).on peer (.mac evi mac) = none := if_neg hkey
      obtain ⟨table', himport, hsame⟩ : ∃ table', importRoute d peer table route = .ok table' ∧ _ :=
        importRoute_of_ne hd hkey table
      refine ⟨table', hone himport, .inl ?_⟩
      rw [hon]
      exact hsame
  | @withdraw key _ hread =>
    refine ⟨_, bind_eq_ok.mpr ⟨_, hread, rfl⟩, .inl ?_⟩
    show Function.update table key none (.mac evi mac) = _
    by_cases hkey : key = .mac evi mac
    · have hon : (Note.withdraw key).on peer (.mac evi mac) = some none := if_pos hkey
      rw [hon, hkey, update_self]
      rfl
    · have hon : (Note.withdraw key).on peer (.mac evi mac) = none := if_neg hkey
      rw [hon, update_of_ne (Ne.symm hkey)]
      rfl

theorem Note.SaidBy.kind {kind : UInt8} (h : note.SaidBy kind body) :
    (note = .keepalive ∧ kind = 4 ∧ body = []) ∨ kind = 2 := by
  cases h with
  | keepalive => exact .inl ⟨rfl, rfl, rfl⟩
  | announce _ => exact .inr rfl
  | withdraw _ => exact .inr rfl

theorem handle_of_saidBy (hd : d.Proper) (hc : c.address = peer)
    (hgood : note.Good c (.mac evi mac) Q) {kind : UInt8} (hsaid : note.SaidBy kind body)
    (table : Table) :
    ∃ table', PeerState.handle d peer (some table) .established kind body =
        .ok (.established, some table') ∧
      (table' (.mac evi mac) = (note.on peer (.mac evi mac)).getD (table (.mac evi mac)) ∨
        evi ∉ d.evis ∧ table' (.mac evi mac) = table (.mac evi mac)) := by
  obtain ⟨rfl, rfl, rfl⟩ | rfl := hsaid.kind
  · exact ⟨table, rfl, .inl rfl⟩
  · obtain ⟨table', htable', hkey⟩ := onUpdate_of_saidBy hd hc hgood hsaid table
    refine ⟨table', ?_, hkey⟩
    unfold PeerState.handle
    dsimp only
    exact bind_eq_ok.mpr ⟨table', htable', rfl⟩

end

section Links

variable {c d : Config} {evi : ℕ} {mac : Octets 6} {Q : ℕ → Prop} {x : PeerState}
  {advertised : Option Exports} {outgoing : Bytes}

theorem Note.Good.on {note : Note} (h : note.Good c (.mac evi mac) Q) {i : Address} {entry : Entry}
    (hon : note.on i (.mac evi mac) = some (some entry)) : Q entry.route.sequence := by
  cases note with
  | keepalive => cases hon
  | withdraw key =>
    change (if key = _ then _ else _) = _ at hon
    split_ifs at hon
    cases hon
  | announce route =>
    change (if route.key = _ then _ else _) = _ at hon
    split_ifs at hon with hkey
    cases hon
    exact (h route rfl).2.2 hkey

theorem Link.established (h : Link c d evi mac Q x advertised outgoing) :
    ∃ received, x.session = some ⟨.established, received⟩ := by
  obtain ⟨received, _, _, _, rfl, -⟩ := h
  exact ⟨received, rfl⟩

variable {old new : Exports}

theorem Link.say {octets : Bytes} {said : List Note}
    (h : Link c d evi mac Q x (some old) outgoing) (hstream : Stream octets said)
    (hgood : ∀ note ∈ said, note.Good c (.mac evi mac) Q) (hnew : new.Good c (.mac evi mac) Q)
    (hmirror : Mirror.replay (Note.on c.address (.mac evi mac))
      (old.entry c.address (.mac evi mac)) said = new.entry c.address (.mac evi mac)) :
    Link c d evi mac Q x (some new) (outgoing ++ octets) := by
  obtain ⟨received, table, adv, notes, hx, hadvertised, hcarries⟩ := h
  cases hadvertised
  refine ⟨received, table, new, notes ++ said, hx, rfl, ?_,
    forall_mem_append.mpr ⟨hcarries.saidGood, hgood⟩, hnew, fun hevi => ?_, hcarries.tableGood⟩
  · rw [← append_assoc]
    exact hcarries.stream.append hstream
  · rw [Mirror.replay_append, hcarries.mirror hevi]
    exact hmirror

theorem Link.keepalive (h : Link c d evi mac Q x advertised outgoing) {octets : Bytes}
    (hsay : Says octets .keepalive) : Link c d evi mac Q x advertised (outgoing ++ octets) := by
  obtain ⟨_, _, adv, _, -, rfl, hcarries⟩ := id h
  refine h.say (.singleton hsay) (fun note hnote => ?_) hcarries.advertisedGood rfl
  rw [mem_singleton.mp hnote]
  exact nofun

theorem Link.send (h : Link c d evi mac Q x (some old) outgoing)
    (hnew : new.Good c (.mac evi mac) Q) :
    Link c d evi mac Q x (some new) (outgoing ++ changes old new) := by
  obtain ⟨_, _, adv, _, -, ⟨⟩, hcarries⟩ := id h
  obtain ⟨notes, hstream, hgood, hmirror⟩ := changes_mirror hcarries.advertisedGood hnew c.address
  exact h.say hstream hgood hnew hmirror

theorem Link.carry (h : Link c d evi mac Q x advertised outgoing) (peer : Address) (count : ℕ) :
    Link c d evi mac Q (x.step d peer (.arrive peer (outgoing.take count))) advertised
      (outgoing.drop count) := by
  obtain ⟨received, table, adv, notes, rfl, hadvertised, hcarries⟩ := h
  refine ⟨received ++ outgoing.take count, table, adv, notes, rfl, hadvertised, ?_⟩
  rw [append_assoc, take_append_drop]
  exact hcarries

theorem Link.read (hd : d.Proper) (h : Link c d evi mac Q x advertised outgoing) (now : ℤ) :
    Link c d evi mac Q (x.step d c.address (.read c.address now)) advertised outgoing := by
  obtain ⟨received, table, adv, notes, rfl, hadvertised, hcarries⟩ := h
  unfold PeerState.step
  dsimp only
  obtain hreceive | ⟨note, notes', kind, body, rest, rfl, hsaid, hreceive, hrest⟩ :=
    hcarries.stream.receive
  · rw [hreceive]
    exact ⟨received, table, adv, notes, rfl, hadvertised, hcarries⟩
  · have hgood := hcarries.saidGood note mem_cons_self
    obtain ⟨table', hhandle, htable'⟩ := handle_of_saidBy hd rfl hgood hsaid table
    rw [hreceive]
    dsimp only
    rw [hhandle]
    refine ⟨rest, table', adv, notes', rfl, hadvertised, hrest,
      fun note hnote => hcarries.saidGood note (mem_cons_of_mem _ hnote),
      hcarries.advertisedGood, fun hevi => ?_, fun hevi entry hentry => ?_⟩
    · have hmirror := hcarries.mirror hevi
      rw [htable'.resolve_right fun hdropped => hdropped.1 hevi]
      exact hmirror
    · rw [htable'.resolve_right fun hdropped => hdropped.1 hevi] at hentry
      cases hon : note.on c.address (.mac evi mac) with
      | none =>
        rw [hon] at hentry
        exact hcarries.tableGood hevi entry hentry
      | some value =>
        rw [hon, getD_some] at hentry
        exact hgood.on (hon.trans (congrArg some hentry))

end Links

/-! ### What a site does by itself -/

section

variable {c : Config} {evi : ℕ} {mac : Octets 6} {Q : ℕ → Prop} {s s' : Speaker} {peer : Address}

theorem learned_eq (hkeyed : s.macs.Keyed) (evi : ℕ) (mac : Octets 6) (now : ℤ) :
    ∃ m, s.learned evi mac now = { s with macs := s.macs.insert (.mac m.evi m.mac) m } ∧
      Key.mac m.evi m.mac = .mac evi mac := by
  unfold Speaker.learned
  dsimp only
  cases hlookup : s.macs.lookup (.mac evi mac) with
  | none => exact ⟨⟨evi, mac, _, now⟩, rfl, rfl⟩
  | some old =>
    have hold := hkeyed (.mac evi mac) old hlookup
    dsimp only
    split_ifs
    · exact ⟨⟨evi, mac, _, now⟩, rfl, rfl⟩
    · refine ⟨{ old with lastSeen := now }, ?_, hold.symm⟩
      rw [hold]

theorem LocalMacs.Keyed.insert {macs : LocalMacs} (h : macs.Keyed) (m : LocalMac) :
    LocalMacs.Keyed (macs.insert (.mac m.evi m.mac) m) := by
  intro k m' hm'
  by_cases hk : k = .mac m.evi m.mac
  · subst hk
    rw [AList.lookup_insert] at hm'
    cases hm'
    rfl
  · rw [AList.lookup_insert_ne hk] at hm'
    exact h k m' hm'

variable {now : ℤ}

theorem Speaker.Inv.frame (h : s.Inv c evi mac Q) {evi' : ℕ} {mac' : Octets 6}
    (hstep : s.step c (.frame evi' mac' now) = some s')
    (hQ : Key.mac evi' mac' = .mac evi mac → ∀ q, Q q) : s'.Inv c evi mac Q := by
  have hsound := h.sound.step hstep
  obtain ⟨m, hlearned, hm⟩ := learned_eq h.keyed evi' mac' now
  unfold Speaker.step at hstep
  dsimp only at hstep
  split_ifs at hstep
  · rw [hlearned] at hstep
    cases hstep
    refine ⟨hsound, h.idle, h.keyed.insert m, fun m' hm' => ?_, h.snapshot⟩
    by_cases hkey : Key.mac evi mac = .mac m.evi m.mac
    · exact hQ (hm.symm.trans hkey.symm) _
    · refine h.learned m' ?_
      rwa [AList.lookup_insert_ne hkey] at hm'
  · cases hstep
    exact h

theorem Speaker.Inv.tick (hc : c.Proper) (h : s.Inv c evi mac Q)
    (hstep : s.step c (.tick now) = some s') : s'.Inv c evi mac Q := by
  have hsound := h.sound.step hstep
  have hkeyed : (fresh s.macs now).Keyed := fun k m hm => h.keyed k m (lookup_of_fresh hm)
  have hlearned : ∀ m, (fresh s.macs now).lookup (.mac evi mac) = some m → Q m.sequence :=
    fun m hm => h.learned m (lookup_of_fresh hm)
  unfold Speaker.step at hstep
  dsimp only at hstep
  cases hexports : exports c (fresh s.macs now) with
  | error e =>
    rw [hexports] at hstep
    cases hstep
  | ok exported =>
    rw [hexports] at hstep
    cases hstep
    refine ⟨hsound, h.idle, hkeyed, hlearned, fun out hout => ?_⟩
    cases hout
    exact exports_good hc hkeyed hexports hlearned

/-- Nothing has been learned, published, advertised or written. -/
def Speaker.Quiet (s s' : Speaker) : Prop :=
  s'.macs = s.macs ∧ s'.snapshot = s.snapshot ∧ s'.advertised = s.advertised ∧
    s'.outgoing = s.outgoing

theorem read_frame {received : Bytes} (hsession : s.sessions peer = some ⟨.established, received⟩)
    (h : s.read c peer now = some s') (hstays : (s'.sessions peer).isSome = true) :
    s.Quiet s' := by
  have hends : some (s.endSession c peer) ≠ some s' := by
    intro heq
    cases heq
    change (Function.update s.sessions peer none peer).isSome = true at hstays
    rw [update_self] at hstays
    cases hstays
  unfold Speaker.read at h
  rw [hsession] at h
  dsimp only at h
  cases hreceive : receive received with
  | error e =>
    rw [hreceive] at h
    exact absurd h hends
  | ok message =>
    rw [hreceive] at h
    cases message with
    | none =>
      cases h
      exact ⟨rfl, rfl, rfl, rfl⟩
    | some message =>
      obtain ⟨kind, body, rest⟩ := message
      dsimp only at h
      cases hhandle : s.handle c peer now .established kind body with
      | ok result =>
        rw [hhandle] at h
        cases h
        unfold Speaker.handle at hhandle
        dsimp only at hhandle
        split_ifs at hhandle
        · cases hhandle
          exact ⟨rfl, rfl, rfl, rfl⟩
        · cases htable : s.peerRoutes peer with
          | none =>
            rw [htable] at hhandle
            cases hhandle
          | some table =>
            rw [htable] at hhandle
            obtain ⟨table', -, hhandle⟩ := bind_eq_ok.mp hhandle
            cases hhandle
            exact ⟨rfl, rfl, rfl, rfl⟩
      | error e =>
        rw [hhandle] at h
        cases e with
        | valueError text => exact absurd h hends
        | indexError | keyError | structError | stopIteration | diverges => cases h

theorem arrive_frame {octets : Bytes} (h : s.step c (.arrive peer octets) = some s') :
    s.Quiet s' := by
  unfold Speaker.step at h
  dsimp only at h
  split at h
  · cases h
    exact ⟨rfl, rfl, rfl, rfl⟩
  · cases h
    exact ⟨rfl, rfl, rfl, rfl⟩

theorem peerState_of_local {e : Event} (he : e.peer = none) (h : s.step c e = some s') :
    s'.peerState = s.peerState := by
  funext q
  rw [peerState_step h q, if_neg]
  rw [he]
  exact nofun

end

/-! ### One event -/

section

variable {f : Fabric} {evi : ℕ} {mac : Octets 6} {Q : Address → ℕ → Prop} {net net' : Net}
  {i j : Address}

variable {e : Event}

theorem at_eq_some (h : f.at net i e = some net') :
    i ∈ f.sites ∧ ∃ s, (net i).step (f.config i) e = some s ∧ net' = Function.update net i s := by
  unfold Fabric.at at h
  split_ifs at h with hi
  obtain ⟨s, hs, rfl⟩ := map_eq_some_iff.mp h
  exact ⟨hi, s, hs, rfl⟩

variable {s : Speaker}

variable (h : f.Inv evi mac Q net)
include h

theorem Fabric.Inv.update (hsite : s.Inv (f.config i) evi mac (Q i))
    (hfrom : ∀ j ∈ f.sites, j ≠ i → Link (f.config i) (f.config j) evi mac (Q i) ((net j).peerState i) (s.advertised j) (s.outgoing j))
    (hto : ∀ j ∈ f.sites, j ≠ i → Link (f.config j) (f.config i) evi mac (Q j) (s.peerState j) ((net j).advertised i) ((net j).outgoing i)) :
    f.Inv evi mac Q (Function.update net i s) := by
  refine ⟨fun k hk => ?_, fun k hk l hl hne => ?_⟩
  · by_cases hki : k = i
    · subst hki
      rw [update_self]
      exact hsite
    · rw [update_of_ne hki]
      exact h.site k hk
  · by_cases hki : k = i
    · subst hki
      rw [update_self, update_of_ne hne]
      exact hfrom l hl hne
    · rw [update_of_ne hki]
      by_cases hli : l = i
      · subst hli
        rw [update_self]
        exact hto k hk hki
      · rw [update_of_ne hli]
        exact h.link k hk l hl hne

theorem Fabric.Inv.write (hi : i ∈ f.sites) (hsite : s.Inv (f.config i) evi mac (Q i))
    (hpeers : s.peerState = (net i).peerState)
    (hself : j ∈ f.sites → j ≠ i → Link (f.config i) (f.config j) evi mac (Q i) ((net j).peerState i) (s.advertised j) (s.outgoing j))
    (hothers : ∀ k ≠ j, s.advertised k = (net i).advertised k ∧ s.outgoing k = (net i).outgoing k) :
    f.Inv evi mac Q (Function.update net i s) := by
  refine h.update hsite (fun k hk hne => ?_) (fun k hk hne => ?_)
  · by_cases hkj : k = j
    · subst hkj
      exact hself hk hne
    · obtain ⟨hadvertised, houtgoing⟩ := hothers k hkj
      rw [hadvertised, houtgoing]
      exact h.link i hi k hk hne
  · rw [hpeers]
    exact h.link k hk i hi hne.symm

theorem Fabric.Inv.send (hi : i ∈ f.sites) :
    f.Inv evi mac Q (Function.update net i ((net i).send j)) := by
  have hsite := h.site i hi
  have hsound : ((net i).send j).Sound (f.config i) := hsite.sound.step (e := .send j) rfl
  unfold Speaker.send at hsound ⊢
  cases hadvertised : (net i).advertised j with
  | none =>
    rw [Function.update_eq_self]
    exact h
  | some old =>
    cases hsnapshot : (net i).snapshot with
    | none =>
      rw [Function.update_eq_self]
      exact h
    | some new =>
      rw [hadvertised, hsnapshot] at hsound
      refine h.write (j := j) hi ⟨hsound, hsite.idle, hsite.keyed, hsite.learned, hsite.snapshot⟩ rfl
        (fun hj hne => ?_) (fun k hk => ⟨update_of_ne hk _ _, update_of_ne hk _ _⟩)
      have hlink := h.link i hi j hj hne
      rw [hadvertised] at hlink
      show Link _ _ _ _ _ _ (Function.update (net i).advertised j _ j)
        (Function.update (net i).outgoing j _ j)
      rw [update_self, update_self]
      exact hlink.send (hsite.snapshot new hsnapshot)

theorem Fabric.Inv.keepalive (hi : i ∈ f.sites)
    (hstep : (net i).step (f.config i) (.keepalive j) = some s) :
    f.Inv evi mac Q (Function.update net i s) := by
  have hsite := h.site i hi
  have hsound := hsite.sound.step hstep
  obtain ⟨octets, hmessage, hsay⟩ := says_keepalive
  unfold Speaker.step at hstep
  dsimp only at hstep
  rw [hmessage] at hstep
  cases hadvertised : (net i).advertised j with
  | none =>
    rw [hadvertised] at hstep
    cases hstep
    rw [Function.update_eq_self]
    exact h
  | some old =>
    rw [hadvertised] at hstep
    cases hstep
    refine h.write (j := j) hi ⟨hsound, hsite.idle, hsite.keyed, hsite.learned, hsite.snapshot⟩ rfl
      (fun hj hne => ?_) (fun k hk => ⟨rfl, update_of_ne hk _ _⟩)
    show Link _ _ _ _ _ _ _ (Function.update (net i).outgoing j _ j)
    rw [update_self]
    exact (h.link i hi j hj hne).keepalive hsay

theorem Fabric.Inv.sessions_eq_none (hf : f.Proper) (hi : i ∈ f.sites)
    (hj : ¬ (j ∈ f.sites ∧ j ≠ i)) : (net i).sessions j = none :=
  (h.site i hi).idle j fun hmem => hj ((hf.peers i hi j).mp hmem)

variable {now : ℤ}

theorem Fabric.Inv.read_same (hf : f.Proper) (hi : i ∈ f.sites)
    (hstep : (net i).read (f.config i) j now = some s) :
    (net i).Quiet s := by
  by_cases hj : j ∈ f.sites ∧ j ≠ i
  · have hlink := h.link j hj.1 i hi hj.2.symm
    have hlink' := hlink.read (hf.config i hi) now
    rw [hf.address j hj.1, ← (peerState_read hstep).1] at hlink'
    obtain ⟨received, hreceived⟩ := hlink.established
    obtain ⟨received', hreceived'⟩ := hlink'.established
    exact read_frame hreceived hstep (isSome_iff_exists.mpr ⟨_, hreceived'⟩)
  · unfold Speaker.read at hstep
    rw [h.sessions_eq_none hf hi hj] at hstep
    cases hstep
    exact ⟨rfl, rfl, rfl, rfl⟩

theorem Fabric.Inv.read (hf : f.Proper) (hi : i ∈ f.sites)
    (hstep : (net i).read (f.config i) j now = some s) :
    f.Inv evi mac Q (Function.update net i s) := by
  have hsite := h.site i hi
  obtain ⟨hmacs, hsnapshot, hadvertised, houtgoing⟩ := h.read_same hf hi hstep
  obtain ⟨hself, hothers⟩ := peerState_read hstep
  refine h.update ⟨hsite.sound.step (e := .read j now) hstep, fun p hp => ?_, hmacs ▸ hsite.keyed,
    hmacs ▸ hsite.learned, hsnapshot ▸ hsite.snapshot⟩ (fun k hk hne => ?_) (fun k hk hne => ?_)
  · by_cases hpj : p = j
    · subst hpj
      have hnone := hsite.idle p hp
      unfold Speaker.read at hstep
      rw [hnone] at hstep
      cases hstep
      exact hnone
    · exact (congrArg PeerState.session (hothers p hpj)).trans (hsite.idle p hp)
  · rw [hadvertised, houtgoing]
    exact h.link i hi k hk hne
  · by_cases hkj : k = j
    · subst hkj
      have hlink := (h.link k hk i hi hne.symm).read (hf.config i hi) now
      rw [hf.address k hk, ← hself] at hlink
      exact hlink
    · rw [hothers k hkj]
      exact h.link k hk i hi hne.symm

theorem Fabric.Inv.congr (heq : ∀ k ∈ f.sites, net' k = net k) : f.Inv evi mac Q net' := by
  refine ⟨fun k hk => ?_, fun k hk l hl hne => ?_⟩
  · rw [heq k hk]
    exact h.site k hk
  · rw [heq k hk, heq l hl]
    exact h.link k hk l hl hne

variable {count : ℕ}

theorem Fabric.Inv.transfer (hf : f.Proper) (hi : i ∈ f.sites) (hj : j ∈ f.sites) (hne : j ≠ i)
    {sender : Speaker}
    (hsender : sender = { net i with outgoing := Function.update (net i).outgoing j (((net i).outgoing j).drop count) })
    (hstep : (net j).step (f.config j) (.arrive i (((net i).outgoing j).take count)) = some s) :
    f.Inv evi mac Q (Function.update (Function.update net i sender) j s) := by
  have hlink := h.link i hi j hj hne
  have hsites := h.site j hj
  have hsound := hsites.sound.step hstep
  obtain ⟨hself, hothers⟩ := peerState_arrive hstep
  obtain ⟨hmacs, hsnapshot, hadvertised, houtgoing⟩ := arrive_frame hstep
  -- the link from `i` to `j` is the only one that changes
  have hread : ∀ k l, ¬ (k = i ∧ l = j) →
      (Function.update (Function.update net i sender) j s l).peerState k = (net l).peerState k := by
    intro k l hkl
    by_cases hlj : l = j
    · subst hlj
      rw [update_self]
      exact hothers k fun hki => hkl ⟨hki, rfl⟩
    · rw [update_of_ne hlj]
      by_cases hli : l = i
      · subst hli hsender
        rw [update_self]
        rfl
      · rw [update_of_ne hli]
  have hwrite : ∀ k l, ¬ (k = i ∧ l = j) →
      (Function.update (Function.update net i sender) j s k).advertised l = (net k).advertised l ∧
      (Function.update (Function.update net i sender) j s k).outgoing l = (net k).outgoing l := by
    intro k l hkl
    by_cases hkj : k = j
    · subst hkj
      rw [update_self, hadvertised, houtgoing]
      exact ⟨rfl, rfl⟩
    · rw [update_of_ne hkj]
      by_cases hki : k = i
      · subst hki hsender
        rw [update_self]
        exact ⟨rfl, update_of_ne (fun hlj => hkl ⟨rfl, hlj⟩) _ _⟩
      · rw [update_of_ne hki]
        exact ⟨rfl, rfl⟩
  refine ⟨fun k hk => ?_, fun k hk l hl hkl => ?_⟩
  · by_cases hkj : k = j
    · subst hkj
      rw [update_self]
      refine ⟨hsound, fun p hp => ?_, hmacs ▸ hsites.keyed, hmacs ▸ hsites.learned,
        hsnapshot ▸ hsites.snapshot⟩
      have hpi : p ≠ i := fun heq => hp ((hf.peers k hk p).mpr ⟨heq ▸ hi, heq ▸ hne.symm⟩)
      exact (congrArg PeerState.session (hothers p hpi)).trans (hsites.idle p hp)
    · rw [update_of_ne hkj]
      by_cases hki : k = i
      · subst hki hsender
        have hsite := h.site k hk
        rw [update_self]
        exact ⟨⟨hsite.sound.selected, hsite.sound.peers⟩, hsite.idle, hsite.keyed, hsite.learned,
          hsite.snapshot⟩
      · rw [update_of_ne hki]
        exact h.site k hk
  · by_cases hmoved : k = i ∧ l = j
    · obtain ⟨rfl, rfl⟩ := hmoved
      subst hsender
      rw [update_self, update_of_ne hkl.symm, update_self, hself]
      show Link _ _ _ _ _ _ _ (Function.update (net k).outgoing l _ l)
      rw [update_self]
      exact hlink.carry k count
    · obtain ⟨hadv, hout⟩ := hwrite k l hmoved
      rw [hread k l hmoved, hadv, hout]
      exact h.link k hk l hl hkl

theorem Fabric.Inv.carry (hf : f.Proper) (hstep : f.step net (.carry i j count) = some net') :
    f.Inv evi mac Q net' := by
  obtain ⟨hj, s, hs, rfl⟩ := at_eq_some hstep
  by_cases hij : i ∈ f.sites ∧ i ≠ j
  · obtain ⟨hi, hne⟩ := hij
    rw [update_of_ne hne.symm] at hs
    exact h.transfer hf hi hj hne.symm rfl hs
  · -- there is no session that could read them
    have hnone := h.sessions_eq_none hf hj hij
    unfold Speaker.step at hs
    dsimp only at hs
    by_cases heq : j = i
    · subst heq
      rw [update_self] at hs
      rw [show Speaker.sessions { net j with outgoing := _ } j = none from hnone] at hs
      cases hs
      have hsite := h.site j hj
      rw [Function.update_idem]
      exact h.write (j := j) hj ⟨⟨hsite.sound.selected, hsite.sound.peers⟩, hsite.idle, hsite.keyed,
        hsite.learned, hsite.snapshot⟩ rfl (fun _ hne => absurd rfl hne)
        (fun k hk => ⟨rfl, update_of_ne hk _ _⟩)
    · rw [update_of_ne heq, hnone] at hs
      cases hs
      refine h.congr fun k hk => ?_
      have hki : k ≠ i := fun hki => hij ⟨hki ▸ hk, fun hij => heq hij.symm⟩
      by_cases hkj : k = j
      · rw [hkj, update_self]
      · rw [update_of_ne hkj, update_of_ne hki]

theorem Fabric.Inv.alone (hi : i ∈ f.sites) (he : e.peer = none)
    (hstep : (net i).step (f.config i) e = some s) (hsite : s.Inv (f.config i) evi mac (Q i)) :
    f.Inv evi mac Q (Function.update net i s) := by
  obtain ⟨hadvertised, houtgoing⟩ := local_frame he hstep
  refine h.update hsite (fun k hk hne => ?_) (fun k hk hne => ?_)
  · rw [hadvertised, houtgoing]
    exact h.link i hi k hk hne
  · rw [peerState_of_local he hstep]
    exact h.link k hk i hi hne.symm

theorem Fabric.Inv.step (hf : f.Proper) {e : NetEvent}
    (hQ : ∀ site now, e = .frame site evi mac now → ∀ q, Q site q)
    (hstep : f.step net e = some net') : f.Inv evi mac Q net' := by
  cases e with
  | frame site evi' mac' now =>
    obtain ⟨hi, s, hs, rfl⟩ := at_eq_some hstep
    refine h.alone hi rfl hs ((h.site site hi).frame hs fun hkey => ?_)
    cases hkey
    exact hQ site now rfl
  | tick site now =>
    obtain ⟨hi, s, hs, rfl⟩ := at_eq_some hstep
    exact h.alone hi rfl hs ((h.site site hi).tick (hf.config site hi) hs)
  | send site peer =>
    obtain ⟨hi, s, hs, rfl⟩ := at_eq_some hstep
    cases hs
    exact h.send hi
  | keepalive site peer =>
    obtain ⟨hi, s, hs, rfl⟩ := at_eq_some hstep
    exact h.keepalive hi hs
  | carry site peer count => exact h.carry hf hstep
  | read site peer now =>
    obtain ⟨hi, s, hs, rfl⟩ := at_eq_some hstep
    exact h.read hf hi hs

theorem Fabric.Inv.run (hf : f.Proper) {events : List NetEvent}
    (hQ : ∀ site now, .frame site evi mac now ∈ events → ∀ q, Q site q)
    (hrun : f.run net events = some net') : f.Inv evi mac Q net' := by
  induction events generalizing net with
  | nil =>
    cases hrun
    exact h
  | cons e events ih =>
    unfold Fabric.run at hrun
    obtain ⟨net₁, hstep, hrun⟩ := bind_eq_some_iff.mp hrun
    have hQe : ∀ site now, e = .frame site evi mac now → ∀ q, Q site q :=
      fun site now he => hQ site now (he ▸ mem_cons_self)
    refine ih (h.step hf hQe hstep) (fun site now hmem => ?_) hrun
    exact hQ site now (mem_cons_of_mem e hmem)

end

end StarFabric.Evpn

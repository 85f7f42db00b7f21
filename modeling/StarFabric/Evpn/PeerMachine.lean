import StarFabric.Evpn.Encoding
import StarFabric.Evpn.Speaker

/-!
# The speaker as a single peer sees it

What one peer sends has no influence on the session and the table of another one. Seen from a
single peer, the speaker is a small machine with a session and a table (`PeerState`), which moves on
the events of this peer alone. The speaker refines the machine of each of its peers
(`peerState_step`, `peerState_run`).
-/

namespace StarFabric.Evpn

open Except ExceptFold List Option Py Wire
open Function (update_self update_of_ne)

/-! ### Exports do not end a session -/

section

variable (c : Config)

theorem raises_l2Update (routerId : Octets 4) (nexthop sid : Octets 16) (evi sequence : ℕ)
    (mac : Option (Octets 6)) (withdraw : Bool) :
    Raises (fun e => ¬ e.IsValue) (l2Update routerId evi nexthop sid mac sequence withdraw) := by
  intro e he
  obtain ⟨octets, h⟩ | h := l2Update_cases routerId nexthop sid evi sequence mac withdraw
  · rw [h] at he
    cases he
  · rw [h] at he
    cases he
    rintro ⟨text, htext⟩
    cases htext

theorem raises_hostExport (host : Octets 4) :
    Raises (fun e => ¬ e.IsValue) (hostExport c host) := by
  obtain ⟨hannounce, hwithdraw⟩ :=
    update_eq c.routerId c.address ((c.exportSids.lookup host).getD c.sid) host
  unfold hostExport
  dsimp only
  rw [hannounce, hwithdraw]
  exact raises_ok _

theorem raises_imetExport (evi : ℕ) : Raises (fun e => ¬ e.IsValue) (imetExport c evi) := by
  unfold imetExport
  cases c.service evi with
  | none => rintro _ ⟨⟩ ⟨_, ⟨⟩⟩
  | some service =>
    refine (raises_l2Update _ _ _ _ _ _ _).bind fun _ _ => ?_
    exact (raises_l2Update _ _ _ _ _ _ _).bind fun _ _ => raises_ok _

theorem raises_macExport (m : LocalMac) : Raises (fun e => ¬ e.IsValue) (macExport c m) := by
  unfold macExport
  cases c.service m.evi with
  | none => rintro _ ⟨⟩ ⟨_, ⟨⟩⟩
  | some service =>
    refine (raises_l2Update _ _ _ _ _ _ _).bind fun _ _ => ?_
    exact (raises_l2Update _ _ _ _ _ _ _).bind fun _ _ => raises_ok _

theorem raises_exports (macs : LocalMacs) : Raises (fun e => ¬ e.IsValue) (exports c macs) := by
  refine (raises_mapM fun host _ => raises_hostExport c host).bind fun _ _ => ?_
  refine (raises_mapM fun evi _ => raises_imetExport c evi).bind fun _ _ => ?_
  exact (raises_mapM fun e _ => raises_macExport c e.2).bind fun _ _ => raises_ok _

end

/-! ### What an event does -/

/-- The routes are selected again, or nothing has happened to them, except that a peer whose session
is being established has got an empty table. -/
def Speaker.Reselects (c : Config) (s s' : Speaker) : Prop :=
  s'.routes = select c s'.peerRoutes ∨ s'.routes = s.routes ∧ (s'.peerRoutes = s.peerRoutes ∨
    ∃ peer session, s.sessions peer = some session ∧ session.phase = .openConfirm ∧
      s'.peerRoutes = Function.update s.peerRoutes peer (some fun _ => none))

section Events

variable {c : Config} {s s' : Speaker} {peer : Address} {now : ℤ}

theorem handle_effect {phase : Phase} {kind : UInt8} {body : Bytes} {out : Phase × Speaker}
    (h : s.handle c peer now phase kind body = .ok out) :
    (out.2.macs = s.macs ∨ out.2.macs = fresh s.macs now) ∧
      (out.2.routes = select c out.2.peerRoutes ∨ out.2.routes = s.routes ∧
        (out.2.peerRoutes = s.peerRoutes ∨ phase = .openConfirm ∧
          out.2.peerRoutes = Function.update s.peerRoutes peer (some fun _ => none))) := by
  have hpure (x : Phase × Speaker) : (pure x : Except Error (Phase × Speaker)) = .ok x := rfl
  unfold Speaker.handle at h
  grind [bind_eq_ok, Speaker.write, Speaker.selectRoutes]

theorem read_effect (h : s.read c peer now = some s') :
    (s'.macs = s.macs ∨ s'.macs = fresh s.macs now) ∧ s.Reselects c s' := by
  unfold Speaker.read at h
  unfold Speaker.Reselects
  split at h
  · grind
  · grind [Speaker.endSession, Speaker.selectRoutes, → handle_effect]

variable {e : Event}

theorem step_reselects (h : s.step c e = some s') : s.Reselects c s' := by
  have hread {peer now} (h : s.read c peer now = some s') := (read_effect h).2
  unfold Speaker.Reselects at hread ⊢
  cases e <;> unfold Speaker.step at h <;>
    grind [Speaker.connect, Speaker.write, Speaker.endSession, Speaker.selectRoutes, Speaker.send,
      Speaker.learned]

theorem step_macs (h : s.step c e = some s') :
    s'.macs = s.macs ∨ (∃ now, s'.macs = fresh s.macs now) ∨
      ∃ evi mac now, e = .frame evi mac now ∧ evi ∈ c.evis ∧ s' = s.learned evi mac now := by
  cases e <;> unfold Speaker.step at h <;>
    grind [Speaker.connect, Speaker.write, Speaker.endSession, Speaker.selectRoutes, Speaker.send,
      → read_effect]

theorem local_frame (he : e.peer = none) (h : s.step c e = some s') :
    s'.advertised = s.advertised ∧ s'.outgoing = s.outgoing := by
  cases e <;> grind [Speaker.step, Speaker.learned, Event.peer]

end Events

/-! ### A single peer -/

/-- The speaker as a single peer sees it. -/
structure PeerState where
  session : Option Session
  table : Option Table

def Speaker.peerState (s : Speaker) (peer : Address) : PeerState :=
  ⟨s.sessions peer, s.peerRoutes peer⟩

namespace PeerState

def handle (c : Config) (peer : Address) (table : Option Table) (phase : Phase) (kind : UInt8)
    (body : Bytes) : Except Error (Phase × Option Table) :=
  match phase with
  | .openSent =>
    if kind ≠ 1 then raise "expected OPEN" else do
      let _hold ← readOpen body
      return (.openConfirm, table)
  | .openConfirm =>
    if kind ≠ 4 ∨ body ≠ [] then raise "expected KEEPALIVE"
    else .ok (.established, some fun _ => none)
  | .established =>
    if kind = 4 ∧ body = [] then .ok (.established, table)
    else if kind ≠ 2 then raise "unexpected BGP message / NOTIFICATION"
    else
      match table with
      | none => .error .keyError
      | some table => do return (.established, some (← onUpdate c peer table body))

def step (c : Config) (peer : Address) (x : PeerState) : Event → PeerState
  | .connect _ =>
    if peer ∉ c.peers ∨ x.session.isSome then x else { x with session := some ⟨.openSent, []⟩ }
  | .arrive _ octets =>
    { x with session := x.session.map fun session =>
        { session with received := session.received ++ octets } }
  | .read _ _ =>
    match x.session with
    | none => x
    | some session =>
      match receive session.received with
      | .error _ => ⟨none, none⟩
      | .ok none => x
      | .ok (some (kind, body, rest)) =>
        match handle c peer x.table session.phase kind body with
        | .ok (phase, table) => ⟨some ⟨phase, rest⟩, table⟩
        | .error _ => ⟨none, none⟩
  | .fail _ => if x.session.isSome then ⟨none, none⟩ else x
  | .keepalive _ | .send _ | .frame _ _ _ | .tick _ => x

end PeerState

section Refinement

variable {c : Config} {s s' : Speaker} {peer : Address} {now : ℤ} {phase phase' : Phase}
  {kind : UInt8} {body : Bytes}

theorem handle_eq_ok (h : s.handle c peer now phase kind body = .ok (phase', s')) :
    s'.sessions = s.sessions ∧ (∀ q ≠ peer, s'.peerRoutes q = s.peerRoutes q) ∧
      PeerState.handle c peer (s.peerRoutes peer) phase kind body =
        .ok (phase', s'.peerRoutes peer) := by
  cases phase with
  | openSent =>
    obtain ⟨hkind, h⟩ := ite_raise_eq_ok.mp h
    obtain ⟨hold, hhold, h⟩ := bind_eq_ok.mp h
    cases h
    refine ⟨rfl, fun _ _ => rfl, ite_raise_eq_ok.mpr ⟨hkind, ?_⟩⟩
    exact bind_eq_ok.mpr ⟨hold, hhold, rfl⟩
  | openConfirm =>
    obtain ⟨hkind, h⟩ := ite_raise_eq_ok.mp h
    obtain ⟨exported, -, h⟩ := bind_eq_ok.mp h
    cases h
    refine ⟨rfl, fun q hq => update_of_ne hq _ _, ite_raise_eq_ok.mpr ⟨hkind, ?_⟩⟩
    show ok _ = ok (Phase.established, Function.update s.peerRoutes peer _ peer)
    rw [update_self]
  | established =>
    unfold Speaker.handle at h
    unfold PeerState.handle
    dsimp only at h ⊢
    split_ifs at h ⊢ with hkeep hkind
    · cases h
      exact ⟨rfl, fun _ _ => rfl, rfl⟩
    · cases htable : s.peerRoutes peer with
      | none =>
        rw [htable] at h
        cases h
      | some table =>
        rw [htable] at h
        obtain ⟨table', htable', h⟩ := bind_eq_ok.mp h
        cases h
        refine ⟨rfl, fun q hq => update_of_ne hq _ _, ?_⟩
        refine bind_eq_ok.mpr ⟨table', htable', ?_⟩
        show ok _ = ok (Phase.established, Function.update s.peerRoutes peer _ peer)
        rw [update_self]

theorem handle_eq_valueError {text : String}
    (h : s.handle c peer now phase kind body = .error (.valueError text)) :
    ∃ e, PeerState.handle c peer (s.peerRoutes peer) phase kind body = .error e := by
  cases hpeer : PeerState.handle c peer (s.peerRoutes peer) phase kind body with
  | error e => exact ⟨e, rfl⟩
  | ok result =>
    -- the speaker raises the exceptions of the machine, and those of its exports
    exfalso
    cases phase with
    | openSent =>
      obtain ⟨hkind, hpeer⟩ := ite_raise_eq_ok.mp hpeer
      obtain ⟨hold, hhold, -⟩ := bind_eq_ok.mp hpeer
      unfold Speaker.handle at h
      rw [if_neg hkind, hhold] at h
      cases h
    | openConfirm =>
      obtain ⟨hkind, -⟩ := ite_raise_eq_ok.mp hpeer
      unfold Speaker.handle at h
      dsimp only at h
      rw [if_neg hkind] at h
      cases hexports : exports c (fresh s.macs now) with
      | error e =>
        rw [hexports] at h
        cases h
        exact raises_exports c _ _ hexports ⟨text, rfl⟩
      | ok exported =>
        rw [hexports] at h
        cases h
    | established =>
      unfold PeerState.handle at hpeer
      unfold Speaker.handle at h
      dsimp only at h hpeer
      split_ifs at h hpeer
      cases htable : s.peerRoutes peer with
      | none =>
        rw [htable] at hpeer
        cases hpeer
      | some table =>
        rw [htable] at h hpeer
        obtain ⟨table', htable', -⟩ := bind_eq_ok.mp hpeer
        dsimp only at h
        rw [htable'] at h
        cases h

theorem peerState_endSession (c : Config) (s : Speaker) (peer : Address) :
    (s.endSession c peer).peerState peer = ⟨none, none⟩ := by
  show PeerState.mk (Function.update s.sessions peer none peer)
    (Function.update s.peerRoutes peer none peer) = _
  rw [update_self, update_self]

theorem peerState_endSession_of_ne (c : Config) (s : Speaker) {peer q : Address} (h : q ≠ peer) :
    (s.endSession c peer).peerState q = s.peerState q := by
  show PeerState.mk (Function.update s.sessions peer none q)
    (Function.update s.peerRoutes peer none q) = _
  rw [update_of_ne h, update_of_ne h]
  rfl

theorem peerState_read (h : s.read c peer now = some s') :
    s'.peerState peer = (s.peerState peer).step c peer (.read peer now) ∧
      ∀ q ≠ peer, s'.peerState q = s.peerState q := by
  have hends : ∀ {s' : Speaker}, some (s.endSession c peer) = some s' →
      s'.peerState peer = ⟨none, none⟩ ∧ ∀ q ≠ peer, s'.peerState q = s.peerState q := by
    intro s' h
    cases h
    exact ⟨peerState_endSession c s peer, fun q hq => peerState_endSession_of_ne c s hq⟩
  unfold Speaker.read at h
  unfold PeerState.step Speaker.peerState
  cases hsession : s.sessions peer with
  | none =>
    rw [hsession] at h
    cases h
    rw [hsession]
    exact ⟨rfl, fun _ _ => rfl⟩
  | some session =>
    rw [hsession] at h
    dsimp only at h ⊢
    cases hreceive : receive session.received with
    | error e =>
      rw [hreceive] at h
      exact hends h
    | ok message =>
      rw [hreceive] at h
      cases message with
      | none =>
        cases h
        rw [hsession]
        exact ⟨rfl, fun _ _ => rfl⟩
      | some message =>
        obtain ⟨kind, body, rest⟩ := message
        dsimp only at h ⊢
        cases hhandle : s.handle c peer now session.phase kind body with
        | ok result =>
          obtain ⟨hsessions, hothers, hpeer⟩ := handle_eq_ok hhandle
          rw [hhandle] at h
          cases h
          rw [hpeer]
          dsimp only
          refine ⟨by rw [update_self], fun q hq => ?_⟩
          rw [update_of_ne hq, hsessions, hothers q hq]
        | error e =>
          rw [hhandle] at h
          cases e with
          | valueError text =>
            obtain ⟨e, hpeer⟩ := handle_eq_valueError hhandle
            rw [hpeer]
            exact hends h
          | indexError | keyError | structError | stopIteration | diverges => cases h

theorem peerState_of_self {e : Event} (he : e.peer = some peer)
    (hself : s'.peerState peer = (s.peerState peer).step c peer e)
    (hothers : ∀ q ≠ peer, s'.peerState q = s.peerState q) (q : Address) :
    s'.peerState q = if e.peer = some q then (s.peerState q).step c q e else s.peerState q := by
  rw [he]
  by_cases hq : q = peer
  · subst hq
    rw [if_pos rfl]
    exact hself
  · rw [if_neg fun h => hq (Option.some.inj h).symm]
    exact hothers q hq

theorem peerState_connect (h : s.connect c peer = some s') :
    s'.peerState peer = (s.peerState peer).step c peer (.connect peer) ∧
      ∀ q ≠ peer, s'.peerState q = s.peerState q := by
  unfold Speaker.connect at h
  show _ = (if peer ∉ c.peers ∨ (s.sessions peer).isSome then _ else _) ∧ _
  split_ifs at h ⊢ with hrefused
  · cases h
    exact ⟨rfl, fun _ _ => rfl⟩
  · cases hopen : openMessage c.routerId with
    | error e =>
      rw [hopen] at h
      cases h
    | ok octets =>
      rw [hopen] at h
      cases h
      refine ⟨?_, fun q hq => ?_⟩
      · show PeerState.mk (Function.update s.sessions peer _ peer) _ = _
        rw [update_self]
        rfl
      · show PeerState.mk (Function.update s.sessions peer _ q) _ = _
        rw [update_of_ne hq]
        rfl

theorem peerState_arrive {octets : Bytes} (h : s.step c (.arrive peer octets) = some s') :
    s'.peerState peer = (s.peerState peer).step c peer (.arrive peer octets) ∧
      ∀ q ≠ peer, s'.peerState q = s.peerState q := by
  unfold Speaker.step at h
  unfold PeerState.step Speaker.peerState
  dsimp only at h ⊢
  cases hsession : s.sessions peer with
  | none =>
    rw [hsession] at h
    cases h
    rw [hsession]
    exact ⟨rfl, fun _ _ => rfl⟩
  | some session =>
    rw [hsession] at h
    cases h
    dsimp only
    refine ⟨?_, fun q hq => ?_⟩
    · rw [update_self]
      rfl
    · rw [update_of_ne hq]

/-- **The speaker refines the machine of each peer**: an event of the peer is a step of the
machine, and other events leave it alone. -/
theorem peerState_step {e : Event} (h : s.step c e = some s') (q : Address) :
    s'.peerState q = if e.peer = some q then (s.peerState q).step c q e else s.peerState q := by
  cases e with
  | connect peer =>
    obtain ⟨hself, hothers⟩ := peerState_connect h
    exact peerState_of_self rfl hself hothers q
  | arrive peer octets =>
    obtain ⟨hself, hothers⟩ := peerState_arrive h
    exact peerState_of_self rfl hself hothers q
  | read peer now =>
    obtain ⟨hself, hothers⟩ := peerState_read h
    exact peerState_of_self rfl hself hothers q
  | fail peer =>
    refine peerState_of_self rfl ?_ ?_ q
    · show _ = if (s.sessions peer).isSome then _ else _
      unfold Speaker.step at h
      dsimp only at h
      split_ifs at h ⊢
      · cases h
        exact peerState_endSession c s peer
      · cases h
        rfl
    · intro q hq
      unfold Speaker.step at h
      dsimp only at h
      split_ifs at h
      · cases h
        exact peerState_endSession_of_ne c s hq
      · cases h
        rfl
  | keepalive peer =>
    have hsame : s'.peerState = s.peerState := by
      unfold Speaker.step at h
      dsimp only at h
      split at h <;> cases h <;> rfl
    exact peerState_of_self rfl (congrFun hsame peer) (fun q _ => congrFun hsame q) q
  | send peer =>
    have hsame : s'.peerState = s.peerState := by
      cases h
      unfold Speaker.send
      split <;> rfl
    exact peerState_of_self rfl (congrFun hsame peer) (fun q _ => congrFun hsame q) q
  | frame evi mac now =>
    unfold Speaker.step at h
    dsimp only at h
    split_ifs at h
    · cases h
      unfold Speaker.learned
      dsimp only
      split
      · rfl
      · split_ifs <;> rfl
    · cases h
      rfl
  | tick now =>
    unfold Speaker.step at h
    dsimp only at h
    split at h
    · cases h
      rfl
    · cases h

theorem peerState_run {events : List Event} (h : Speaker.run c events = some s) (q : Address) :
    s.peerState q = (events.filter fun e => e.peer = some q).foldl (PeerState.step c q)
      ⟨none, none⟩ := by
  induction events using reverseRecOn generalizing s with
  | nil =>
    cases h
    rfl
  | append_singleton events e ih =>
    unfold Speaker.run at h
    rw [foldlM_append] at h
    obtain ⟨s₁, hs₁, h⟩ := bind_eq_some_iff.mp h
    obtain ⟨s₂, hs₂, h⟩ := bind_eq_some_iff.mp h
    cases h
    rw [peerState_step hs₂ q, filter_append, foldl_append, ← ih hs₁]
    by_cases he : e.peer = some q
    · rw [if_pos he, filter_cons_of_pos (by simpa using he)]
      rfl
    · rw [if_neg he, filter_cons_of_neg (by simpa using he)]
      rfl

end Refinement

end StarFabric.Evpn

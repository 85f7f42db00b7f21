import StarFabric.Evpn.Links

/-!
# A host that moves

A site that hears a host gives its route a sequence number one above the best that it knows of its
peers. `select` prefers the highest number, and among equal ones the peer whose address has the
smaller text. The selection converges on the site that has just heard the host (`select_converges`),
unless another one holds the same number with a smaller text (`tie_keeps_old_site`) or a number that
it has not sent yet.
-/

namespace StarFabric.Evpn

open List Nat Py Wire
open Function (update_self update_of_ne)

/-! ### Nothing on its way -/

section

variable {f : Fabric} {evi : ℕ} {mac : Octets 6} {Q : Address → ℕ → Prop} {net : Net}
  {i j : Address}

theorem on_of_not_mentions {note : Note} {message : UInt8 × Bytes} {key : Key}
    (hsaid : note.SaidBy message.1 message.2) (h : Mentions key message = false) (i : Address) :
    note.on i key = none := by
  obtain ⟨kind, body⟩ := message
  unfold Mentions at h
  cases hsaid with
  | keepalive => rfl
  | @announce route _ hread =>
    rw [hread] at h
    refine if_neg fun hkey => ?_
    subst hkey
    simp at h
  | @withdraw key' _ hread =>
    rw [hread] at h
    refine if_neg fun hkey => ?_
    subst hkey
    simp at h

theorem Fabric.Inv.pending (h : f.Inv evi mac Q net) (hi : i ∈ f.sites) (hj : j ∈ f.sites)
    (hne : j ≠ i) :
    ∃ received table adv notes,
      (net j).peerState i = ⟨some ⟨.established, received⟩, some table⟩ ∧
      (net i).advertised j = some adv ∧
      Link.Carries (f.config i) (f.config j) evi mac (Q i) (received ++ (net i).outgoing j) table adv
        notes ∧
      ∀ note ∈ notes, ∃ message ∈ net.pending i j, note.SaidBy message.1 message.2 := by
  obtain ⟨received, table, adv, notes, hx, hadv, hcarries⟩ := h.link i hi j hj hne
  have hstream : net.stream i j = received ++ (net i).outgoing j := by
    unfold Net.stream
    rw [show (net j).sessions i = _ from congrArg PeerState.session hx]
    rfl
  refine ⟨received, table, adv, notes, hx, hadv, hcarries, fun note hnote => ?_⟩
  unfold Net.pending
  rw [hstream]
  exact hcarries.stream.messages (le_refl _) hnote

theorem Fabric.Inv.table_of_delivered (hf : f.Proper) (h : f.Inv evi mac Q net)
    (hi : i ∈ f.sites) (hj : j ∈ f.sites) (hne : j ≠ i) (hevi : evi ∈ (f.config j).evis)
    (hdelivered : net.Delivered i j (.mac evi mac)) :
    ((net j).peerRoutes i).bind (fun table => table (.mac evi mac)) =
      ((net i).advertised j).bind (Exports.entry i (.mac evi mac)) := by
  obtain ⟨received, table, adv, notes, hx, hadv, hcarries, hmessages⟩ := h.pending hi hj hne
  have hsilent : ∀ note ∈ notes, note.on i (.mac evi mac) = none := by
    intro note hnote
    obtain ⟨message, hmessage, hsaid⟩ := hmessages note hnote
    exact on_of_not_mentions hsaid (hdelivered message hmessage) i
  have hmirror := hcarries.mirror hevi
  rw [hf.address i hi, Mirror.replay_of_none hsilent] at hmirror
  rw [show (net j).peerRoutes i = _ from congrArg PeerState.table hx, hadv]
  exact hmirror

theorem delivered_of_quiet (hquiet : f.Quiet net) (hi : i ∈ f.sites) (hj : j ∈ f.sites)
    (hne : j ≠ i) (key : Key) : net.Delivered i j key := by
  intro message hmessage
  have hkind := hquiet i hi j hj hne.symm message hmessage
  unfold Mentions
  rw [beq_eq_false_iff_ne.mpr hkind]
  rfl

end

/-! ### Numbers -/

def Net.sent (net : Net) (i j : Address) (key : Key) : Option ℕ :=
  (((net i).advertised j).bind (Exports.entry i key)).map fun entry => entry.route.sequence

/-- The numbers that a site has for a key: in what it has learned, in the exports of the current
round of `publish`, and in what it has sent to the sites. -/
def Fabric.numbers (f : Fabric) (net : Net) (i : Address) (key : Key) : List ℕ :=
  (((net i).macs.lookup key).map LocalMac.sequence).toList ++
    (((net i).snapshot.bind (Exports.entry i key)).map fun entry => entry.route.sequence).toList ++
    f.sites.flatMap fun j => (net.sent i j key).toList

def Fabric.keeps (f : Fabric) (i : Address) (key : Key) : Net → List NetEvent → Bool
  | net, [] => ((net i).macs.lookup key).isSome
  | net, e :: events => ((net i).macs.lookup key).isSome && match f.step net e with
    | some net' => f.keeps i key net' events
    | none => true

section Numbers

variable {f : Fabric} {evi : ℕ} {mac : Octets 6} {P Q : Address → ℕ → Prop} {net net' : Net}
  {i j : Address}

variable {key : Key}

theorem Exports.Good.strengthen {c : Config} {P Q : ℕ → Prop} {out : Exports} (h : out.Good c key P)
    (hQ : ∀ entry, out.entry i key = some entry → Q entry.route.sequence) : out.Good c key Q := by
  refine ⟨fun e he => ?_, h.functional⟩
  obtain ⟨route, hroute, -⟩ := h.exported e he
  refine ⟨route, hroute, fun hkey => hQ ⟨route, i⟩ ?_⟩
  have hentry := h.entry_eq he (hroute.key.symm.trans hkey) i
  have hon : (Note.announce route).on i key = some (some ⟨route, i⟩) := if_pos hkey
  rw [hroute.announceNote, hon] at hentry
  exact (Option.some.inj hentry).symm

variable {q : ℕ}

theorem mem_numbers :
    q ∈ f.numbers net i key ↔ ((net i).macs.lookup key).map LocalMac.sequence = some q ∨
      (((net i).snapshot.bind (Exports.entry i key)).map fun entry => entry.route.sequence) = some q ∨
      ∃ j ∈ f.sites, net.sent i j key = some q := by
  unfold Fabric.numbers
  rw [mem_append, mem_append, Option.mem_toList, Option.mem_toList, mem_flatMap, or_assoc]
  simp only [Option.mem_toList]

theorem Fabric.Inv.strengthen (hf : f.Proper) (h : f.Inv evi mac P net) (hquiet : f.Quiet net)
    (hQ : ∀ i ∈ f.sites, ∀ q ∈ f.numbers net i (.mac evi mac), Q i q) : f.Inv evi mac Q net := by
  refine ⟨fun i hi => ?_, fun i hi j hj hne => ?_⟩
  · have hsite := h.site i hi
    refine ⟨hsite.sound, hsite.idle, hsite.keyed, fun m hm => ?_,
      fun out hout => (hsite.snapshot out hout).strengthen (i := i) fun entry hentry => ?_⟩
    · refine hQ i hi _ (mem_numbers.mpr (.inl ?_))
      rw [hm]
      rfl
    · refine hQ i hi _ (mem_numbers.mpr (.inr (.inl ?_)))
      rw [hout, Option.bind_some, hentry]
      rfl
  · obtain ⟨received, table, adv, notes, hx, hadv, hcarries, hmessages⟩ := h.pending hi hj hne
    have hsent : ∀ entry, adv.entry i (.mac evi mac) = some entry → Q i entry.route.sequence := by
      intro entry hentry
      refine hQ i hi _ (mem_numbers.mpr (.inr (.inr ⟨j, hj, ?_⟩)))
      unfold Net.sent
      rw [hadv, Option.bind_some, hentry]
      rfl
    refine ⟨received, table, adv, notes, hx, hadv, hcarries.stream, ?_,
      hcarries.advertisedGood.strengthen hsent, hcarries.mirror, fun hevi entry hentry => ?_⟩
    · -- only keepalives are left
      intro note hnote route hroute
      obtain ⟨message, hmessage, hsaid⟩ := hmessages note hnote
      obtain ⟨hkeepalive, -⟩ | hkind := hsaid.kind
      · rw [hkeepalive] at hroute
        cases hroute
      · exact absurd hkind (hquiet i hi j hj hne.symm message hmessage)
    · have htable := h.table_of_delivered hf hi hj hne hevi (delivered_of_quiet hquiet hi hj hne _)
      rw [show (net j).peerRoutes i = _ from congrArg PeerState.table hx, hadv] at htable
      exact hsent entry (htable.symm.trans hentry)

variable {entry : Entry}

theorem Fabric.Inv.selected (hf : f.Proper) (h : f.Inv evi mac Q net) (hi : i ∈ f.sites)
    (hevi : evi ∈ (f.config i).evis) (hentry : (net i).routes (.mac evi mac) = some entry) :
    ∃ p ∈ f.sites, p ≠ i ∧ Q p entry.route.sequence := by
  rw [(h.site i hi).sound.selected] at hentry
  obtain ⟨p, hp, hcandidate⟩ := mem_map.mp (Champion.mem_of_best hentry)
  have hpeer : p ∈ (f.config i).peers := mem_dedup.mp ((mem_insertionSort _).mp hp)
  obtain ⟨hmem, hne⟩ := (hf.peers i hi p).mp hpeer
  obtain ⟨received, table, adv, notes, hx, -, hcarries⟩ := h.link p hmem i hi hne.symm
  rw [show (net i).peerRoutes p = _ from congrArg PeerState.table hx] at hcandidate
  exact ⟨p, hmem, hne, hcarries.tableGood hevi entry hcandidate⟩

theorem Fabric.Inv.le_selected (hf : f.Proper) (h : f.Inv evi mac Q net) (hquiet : f.Quiet net)
    (hi : i ∈ f.sites) (hj : j ∈ f.sites) (hne : j ≠ i) (hevi : evi ∈ (f.config j).evis)
    (hsent : net.sent i j (.mac evi mac) = some q) :
    ∃ entry, (net j).routes (.mac evi mac) = some entry ∧ q ≤ entry.route.sequence := by
  obtain ⟨entry, hentry, rfl⟩ := Option.map_eq_some_iff.mp hsent
  have htable := h.table_of_delivered hf hi hj hne hevi (delivered_of_quiet hquiet hi hj hne _)
  have hpeer : i ∈ (f.config j).order :=
    (mem_insertionSort _).mpr (mem_dedup.mpr ((hf.peers j hj i).mpr ⟨hi, hne.symm⟩))
  rw [(h.site j hj).sound.selected]
  exact Champion.exists_best_ge (mem_map.mpr ⟨i, hpeer, htable.trans hentry⟩)

variable {s : Speaker}

theorem le_learned {now : ℤ} {m : LocalMac}
    (hm : (s.learned evi mac now).macs.lookup (.mac evi mac) = some m)
    (hentry : s.routes (.mac evi mac) = some entry) : entry.route.sequence ≤ m.sequence := by
  unfold Speaker.learned at hm
  dsimp only at hm
  rw [hentry] at hm
  cases hold : s.macs.lookup (.mac evi mac) with
  | none =>
    rw [hold, AList.lookup_insert] at hm
    cases hm
    exact le_succ _
  | some old =>
    rw [hold] at hm
    dsimp only [Option.map_some, Option.getD_some] at hm
    split_ifs at hm with hlow
    · rw [AList.lookup_insert] at hm
      cases hm
      exact le_succ _
    · rw [AList.lookup_insert] at hm
      cases hm
      exact not_lt.mp hlow

theorem learned_keeps {old : LocalMac} (hold : s.macs.lookup (.mac evi mac) = some old)
    (hle : ∀ entry, s.routes (.mac evi mac) = some entry → entry.route.sequence ≤ old.sequence)
    (now : ℤ) :
    ∃ m, (s.learned evi mac now).macs.lookup (.mac evi mac) = some m ∧
      m.sequence = old.sequence := by
  have hlow : ¬ old.sequence <
      ((s.routes (.mac evi mac)).map fun entry => entry.route.sequence).getD 0 := by
    cases hentry : s.routes (.mac evi mac) with
    | none => exact not_lt_zero _
    | some entry => exact not_lt.mpr (hle entry hentry)
  refine ⟨{ old with lastSeen := now }, ?_, rfl⟩
  unfold Speaker.learned
  dsimp only
  rw [hold]
  dsimp only
  rw [if_neg hlow]
  exact AList.lookup_insert _

theorem lookup_fresh (macs : LocalMacs) (now : ℤ) (key : Key) :
    (fresh macs now).lookup key = macs.lookup key ∨ (fresh macs now).lookup key = none := by
  cases h : (fresh macs now).lookup key with
  | none => exact .inr rfl
  | some m => exact .inl (lookup_of_fresh h).symm

/-- A step of the fabric is an event of one site. Before a site receives octets, they are taken off
the queue of another one. -/
theorem Fabric.exists_at {e : NetEvent} (h : f.step net e = some net') :
    ∃ net₀ site e', f.at net₀ site e' = some net' ∧ (∀ k, (net₀ k).macs = (net k).macs) ∧
      ∀ evi mac now, e' = .frame evi mac now → net₀ = net := by
  cases e with
  | carry site peer count =>
    refine ⟨_, _, _, h, fun k => ?_, nofun⟩
    by_cases hk : k = site
    · subst hk
      rw [update_self]
    · rw [update_of_ne hk]
  | _ => exact ⟨_, _, _, h, fun _ => rfl, fun _ _ _ _ => rfl⟩

theorem Fabric.Inv.lookup_step (h : f.Inv evi mac Q net) {e : NetEvent}
    (hstep : f.step net e = some net') (hi : i ∈ f.sites) :
    (net' i).macs.lookup (.mac evi mac) = (net i).macs.lookup (.mac evi mac) ∨
      (net' i).macs.lookup (.mac evi mac) = none ∨
      ∃ now, net' i = (net i).learned evi mac now := by
  obtain ⟨net₀, site, e', hat, hmacs, hframe⟩ := Fabric.exists_at hstep
  obtain ⟨-, s, hs, rfl⟩ := at_eq_some hat
  rw [← hmacs i]
  by_cases hne : i = site
  · subst hne
    rw [update_self]
    rcases step_macs hs with heq | ⟨now, heq⟩ | ⟨evi', mac', now, he, -, rfl⟩
    · exact .inl (by rw [heq])
    · rw [heq]
      exact (lookup_fresh _ now _).imp_right .inl
    · cases hframe evi' mac' now he
      by_cases hkey : Key.mac evi mac = .mac evi' mac'
      · cases hkey
        exact .inr (.inr ⟨now, rfl⟩)
      · obtain ⟨m, hlearned, hm⟩ := learned_eq (h.site i hi).keyed evi' mac' now
        rw [hlearned]
        exact .inl (AList.lookup_insert_ne (hm ▸ hkey))
  · rw [update_of_ne hne]
    exact .inl rfl

variable {events : List NetEvent}

theorem isSome_of_keeps (h : f.keeps i key net events = true) :
    ((net i).macs.lookup key).isSome = true := by
  cases events with
  | nil => exact h
  | cons e events => exact ((Bool.and_eq_true _ _).mp h).1

theorem Fabric.Inv.number_run (hf : f.Proper) (h : f.Inv evi mac Q net) (hi : i ∈ f.sites)
    (hevi : evi ∈ (f.config i).evis) (hQ : ∀ j ∈ f.sites, j ≠ i → ∀ q', Q j q' → q' ≤ q)
    (hframes : ∀ site now, .frame site evi mac now ∈ events → ∀ q', Q site q')
    (hkept : f.keeps i (.mac evi mac) net events = true)
    (hnumber : ∃ m, (net i).macs.lookup (.mac evi mac) = some m ∧ m.sequence = q)
    (hrun : f.run net events = some net') :
    ∃ m, (net' i).macs.lookup (.mac evi mac) = some m ∧ m.sequence = q := by
  induction events generalizing net with
  | nil =>
    cases hrun
    exact hnumber
  | cons e events ih =>
    obtain ⟨net₁, hstep, hrun⟩ := Option.bind_eq_some_iff.mp hrun
    unfold Fabric.keeps at hkept
    rw [hstep, Bool.and_eq_true] at hkept
    have hstays := isSome_of_keeps hkept.2
    refine ih ?_ (fun site now hmem => hframes site now (mem_cons_of_mem e hmem)) hkept.2 ?_ hrun
    · exact h.step hf (fun site now he => hframes site now (he ▸ mem_cons_self)) hstep
    · obtain ⟨m, hm, rfl⟩ := hnumber
      obtain hsame | hgone | ⟨now, hlearned⟩ := h.lookup_step hstep hi
      · exact ⟨m, hsame.trans hm, rfl⟩
      · rw [hgone] at hstays
        cases hstays
      · rw [hlearned]
        refine learned_keeps hm (fun entry hentry => ?_) now
        obtain ⟨p, hp, hne, hnumber⟩ := h.selected hf hi hevi hentry
        exact hQ p hp hne _ hnumber

end Numbers

/-! ### Selection -/

/-- A number `q` of the site `T` gives way to the number `s` of the site `S`. -/
def Beaten (S : Address) (s : ℕ) (T : Address) (q : ℕ) : Prop :=
  q < s ∨ q = s ∧ text S < text T

section Selection

variable {f : Fabric} {evi : ℕ} {mac : Octets 6} {Q : Address → ℕ → Prop} {net : Net}
  {i j : Address}

theorem order_eq_append {c : Config} {p : Address} (hp : p ∈ c.peers) :
    ∃ before after, c.order = before ++ p :: after ∧ p ∉ before ∧ p ∉ after ∧
      ∀ q ∈ after, ¬ text p < text q := by
  have hmem : p ∈ c.order := (List.mem_insertionSort _).mpr (List.mem_dedup.mpr hp)
  have htotal : Std.Total fun a b : Address => ¬ text a < text b :=
    ⟨fun a b => List.le_total (text b) (text a)⟩
  have htrans : IsTrans Address fun a b => ¬ text a < text b :=
    ⟨fun a b c hab hbc => @List.le_trans Char _ _ _ _ (text c) (text b) (text a) hbc hab⟩
  have hsorted : c.order.Pairwise fun a b => ¬ text a < text b :=
    List.pairwise_insertionSort _ c.peers.dedup
  have hnodup : c.order.Nodup :=
    (List.perm_insertionSort _ _).nodup_iff.mpr (List.nodup_dedup c.peers)
  obtain ⟨before, after, heq⟩ := List.append_of_mem hmem
  rw [heq] at hsorted hnodup
  obtain ⟨hnot, -⟩ := List.nodup_cons.mp (List.nodup_middle.mp hnodup)
  refine ⟨before, after, heq, fun h => hnot (List.mem_append_left _ h),
    fun h => hnot (List.mem_append_right _ h), ?_⟩
  exact (List.pairwise_cons.mp (List.pairwise_append.mp hsorted).2.1).1

theorem Fabric.Inv.selects (hf : f.Proper) (h : f.Inv evi mac Q net) (hi : i ∈ f.sites)
    (hj : j ∈ f.sites) (hne : j ≠ i) (hevi : evi ∈ (f.config j).evis) {entry : Entry}
    (hentry : ((net j).peerRoutes i).bind (fun table => table (.mac evi mac)) = some entry)
    (hQ : ∀ k ∈ f.sites, k ≠ i → ∀ q, Q k q → Beaten i entry.route.sequence k q) :
    (net j).routes (.mac evi mac) = some entry := by
  obtain ⟨before, after, horder, hbefore, hafter, hsorted⟩ :=
    order_eq_append ((hf.peers j hj i).mpr ⟨hi, hne.symm⟩)
  have hbeaten : ∀ k ∈ (f.config j).order, k ≠ i → ∀ b,
      ((net j).peerRoutes k).bind (fun table => table (.mac evi mac)) = some b →
      Beaten i entry.route.sequence k b.route.sequence := by
    intro k hk hki b hb
    obtain ⟨hmem, hkj⟩ := (hf.peers j hj k).mp (mem_dedup.mp ((mem_insertionSort _).mp hk))
    obtain ⟨received, table, adv, notes, hx, -, hcarries⟩ := h.link k hmem j hj hkj.symm
    rw [show (net j).peerRoutes k = _ from congrArg PeerState.table hx] at hb
    exact hQ k hmem hki _ (hcarries.tableGood hevi b hb)
  rw [(h.site j hj).sound.selected]
  unfold select
  rw [horder, map_append, map_cons, hentry]
  rw [horder] at hbeaten
  refine Champion.best_eq_some (fun b hb => ?_) (fun b hb => ?_)
  · obtain ⟨k, hk, hcandidate⟩ := mem_map.mp hb
    obtain hlt | ⟨heq, -⟩ := hbeaten k (mem_append_left _ hk) (fun h => hbefore (h ▸ hk)) b
      hcandidate
    · exact hlt.le
    · exact heq.le
  · obtain ⟨k, hk, hcandidate⟩ := mem_map.mp hb
    obtain hlt | ⟨-, htext⟩ := hbeaten k (mem_append_right _ (mem_cons_of_mem _ hk))
      (fun h => hafter (h ▸ hk)) b hcandidate
    · exact hlt
    · exact absurd htext (hsorted k hk)

theorem entry_of_published (hc : (f.config i).Proper)
    (h : f.Published net i j (.mac evi mac)) :
    ∃ m route, (net i).macs.lookup (.mac evi mac) = some m ∧
      ((net i).advertised j).bind (Exports.entry i (.mac evi mac)) = some ⟨route, i⟩ ∧
      route.sequence = m.sequence := by
  obtain ⟨hsome, hadvertised⟩ := h
  obtain ⟨octets, hexport⟩ := Option.isSome_iff_exists.mp hsome
  rw [hexport] at hadvertised
  obtain ⟨m, hm, hexport⟩ := Option.bind_eq_some_iff.mp hexport
  obtain ⟨e, he, rfl⟩ := Option.map_eq_some_iff.mp hexport
  obtain ⟨adv, hadv, hlookup⟩ := Option.bind_eq_some_iff.mp hadvertised
  cases hexports : macExport (f.config i) m with
  | error error =>
    rw [hexports] at he
    cases he
  | ok e' =>
    rw [hexports] at he
    cases he
    obtain ⟨-, route, hroute, hsequence⟩ := exported_of_macExport hc hexports
    refine ⟨m, route, hm, ?_, hsequence⟩
    rw [hadv, Option.bind_some]
    unfold Exports.entry
    rw [hlookup, Option.bind_some, announcedRoute_of_announce hroute.announce]
    rfl

end Selection

/-! ### Convergence -/

/-- **A host that is heard at a site is found there.** Nothing is on its way when the site `S` hears
the host. Every number that another site has for it is at most one that it has sent to `S`, and
where one of these is the number of `S` itself, the text of `S` is the smaller one. Then, when `S`
has kept its entry and no other site has heard the host, and what `S` has learned is published and
delivered, all sites with the EVI select the route of `S`. -/
theorem select_converges {f : Fabric} (hf : f.Proper) {evi : ℕ} {mac : Octets 6} {S : Address}
    {now : ℤ} {history later : List NetEvent} {net₀ net net₁ net₂ : Net} {m : LocalMac}
    (hstart : f.start = some net₀) (hhistory : f.run net₀ history = some net)
    (hquiet : f.Quiet net) (hevi : evi ∈ (f.config S).evis)
    (hframe : f.step net (.frame S evi mac now) = some net₁)
    (hm : (net₁ S).macs.lookup (.mac evi mac) = some m)
    (hsent : ∀ T ∈ f.sites, T ≠ S → ∀ q ∈ f.numbers net T (.mac evi mac),
      ∃ q' ∈ net.sent T S (.mac evi mac), q ≤ q')
    (htie : ∀ T ∈ f.sites, T ≠ S → net.sent T S (.mac evi mac) = some m.sequence → text S < text T)
    (hothers : ∀ T now, .frame T evi mac now ∈ later → T = S)
    (hkept : f.keeps S (.mac evi mac) net₁ later = true)
    (hlater : f.run net₁ later = some net₂)
    (hpublished : ∀ R ∈ f.sites, R ≠ S → f.Published net₂ S R (.mac evi mac))
    (hdelivered : ∀ R ∈ f.sites, R ≠ S → net₂.Delivered S R (.mac evi mac))
    {R : Address} (hR : R ∈ f.sites) (hne : R ≠ S) (heviR : evi ∈ (f.config R).evis) :
    ∃ route, (net₂ R).routes (.mac evi mac) = some ⟨route, S⟩ ∧ route.sequence = m.sequence := by
  obtain ⟨hS, s, hs, hnet₁⟩ := at_eq_some hframe
  have hinv : f.Inv evi mac (fun _ _ => True) net :=
    (hf.inv_start hstart _).run hf (fun _ _ _ _ => trivial) hhistory
  -- the numbers of the other sites give way to the new number of `S`
  have hlearned : s = (net S).learned evi mac now := by
    unfold Speaker.step at hs
    dsimp only at hs
    rw [if_pos hevi] at hs
    exact (Option.some.inj hs).symm
  rw [hnet₁, update_self, hlearned] at hm
  have hbeaten : ∀ T ∈ f.sites, ∀ q ∈ f.numbers net T (.mac evi mac),
      T = S ∨ Beaten S m.sequence T q := by
    intro T hT q hq
    by_cases hTS : T = S
    · exact .inl hTS
    · obtain ⟨q', hq', hle⟩ := hsent T hT hTS q hq
      obtain ⟨entry, hentry, hle'⟩ := hinv.le_selected hf hquiet hT hS (Ne.symm hTS) hevi hq'
      have htop : q' ≤ m.sequence := hle'.trans (le_learned hm hentry)
      obtain hlt | heq := (hle.trans htop).lt_or_eq
      · exact .inr (.inl hlt)
      · refine .inr (.inr ⟨heq, htie T hT hTS ?_⟩)
        rw [Option.mem_def.mp hq', Option.some.injEq]
        omega
  -- from here on this stays so
  have hinv₁ : f.Inv evi mac (fun T q => T = S ∨ Beaten S m.sequence T q) net₁ := by
    refine (hinv.strengthen hf hquiet hbeaten).step hf (fun site now he q => .inl ?_) hframe
    cases he
    rfl
  have hframes : ∀ site now, .frame site evi mac now ∈ later → ∀ q,
      site = S ∨ Beaten S m.sequence site q :=
    fun site now hmem q => .inl (hothers site now hmem)
  have hinv₂ := hinv₁.run hf hframes hlater
  have hnumber : ∃ m', (net₂ S).macs.lookup (.mac evi mac) = some m' ∧
      m'.sequence = m.sequence := by
    refine hinv₁.number_run hf hS hevi (fun T hT hTS q hq => ?_) hframes hkept ⟨m, ?_, rfl⟩ hlater
    · obtain hlt | ⟨heq, -⟩ := hq.resolve_left hTS
      · exact hlt.le
      · exact heq.le
    · rw [hnet₁, update_self, hlearned]
      exact hm
  -- and the entry of `S` has arrived
  obtain ⟨m', hm', hsequence'⟩ := hnumber
  obtain ⟨m'', route, hm'', hadvertised, hsequence⟩ :=
    entry_of_published (hf.config S hS) (hpublished R hR hne)
  rw [hm'] at hm''
  cases hm''
  have htable := hinv₂.table_of_delivered hf hS hR hne heviR (hdelivered R hR hne)
  rw [hadvertised] at htable
  refine ⟨route, hinv₂.selects hf hS hR hne heviR htable fun T _ hTS q hq => ?_,
    hsequence.trans hsequence'⟩
  have hnumber : route.sequence = m.sequence := hsequence.trans hsequence'
  rw [hnumber]
  exact hq.resolve_left hTS

/-! ### A mesh of three sites -/

section

instance Fabric.decidableQuiet (f : Fabric) (net : Net) : Decidable (f.Quiet net) :=
  inferInstanceAs (Decidable (∀ i ∈ f.sites, ∀ j ∈ f.sites, i ≠ j →
    ∀ message ∈ net.pending i j, message.1 ≠ 2))

instance Net.decidableDelivered (net : Net) (i j : Address) (key : Key) :
    Decidable (net.Delivered i j key) :=
  inferInstanceAs (Decidable (∀ message ∈ net.pending i j, Mentions key message = false))

instance Fabric.decidablePublished (f : Fabric) (net : Net) (i j : Address) (key : Key) :
    Decidable (f.Published net i j key) :=
  inferInstanceAs (Decidable (_ ∧ _))

/-- The addresses `fd00:0:0:1::1`, `fd00:0:0:2::1` and so on. -/
def meshSite (site : UInt8) : Address :=
  ⟨[0xfd, 0, 0, 0, 0, 0, 0, site, 0, 0, 0, 0, 0, 0, 0, 1], rfl⟩

def mesh : Fabric where
  sites := [meshSite 1, meshSite 2, meshSite 3]
  config := fun i => {
    routerId := lastOctet 3 1
    address := i
    sid := i
    peers := [meshSite 1, meshSite 2, meshSite 3].filter fun j => j ≠ i
    imports := []
    exports := []
    exportSids := []
    l2 := [⟨100, i⟩] }

theorem mesh_proper : mesh.Proper where
  address := fun _ _ => rfl
  peers := by
    intro i _ j
    show j ∈ [meshSite 1, meshSite 2, meshSite 3].filter (fun j => j ≠ i) ↔ _
    rw [mem_filter, decide_eq_true_iff]
    rfl
  config := by
    have hsid : ∀ i ∈ mesh.sites, badSid i = false := by decide
    intro i hi
    refine ⟨hsid i hi, nofun, fun v hv => ?_, nofun⟩
    cases mem_singleton.mp hv
    exact ⟨hsid i hi, beq_self_eq_true _⟩

def roamer : Octets 6 := lastOctet 5 7

def settle (sites : List UInt8) : List NetEvent :=
  let links : List (UInt8 × UInt8) := [(1, 2), (1, 3), (2, 1), (2, 3), (3, 1), (3, 2)]
  (sites.flatMap fun i => [.tick (meshSite i) 0] ++ ([1, 2, 3].filter fun j => j ≠ i).map fun j =>
      .send (meshSite i) (meshSite j)) ++
    links.flatMap fun link => [.carry (meshSite link.1) (meshSite link.2) 1000,
      .read (meshSite link.2) (meshSite link.1) 0, .read (meshSite link.2) (meshSite link.1) 0]

theorem settle_no_frame {sites : List UInt8} {T : Address} {evi : ℕ} {mac : Octets 6} {now : ℤ} :
    NetEvent.frame T evi mac now ∉ settle sites := by
  simp [settle]

-- the two histories are evaluated through several nested quantifiers over optional states
set_option synthInstance.maxSize 1000

theorem select_converges_roamer :
    ∃ net₀ ∈ mesh.start,
      ∃ net ∈ mesh.run net₀ ([.frame (meshSite 1) 100 roamer 0] ++ settle [1]),
      ∃ net₁ ∈ mesh.step net (.frame (meshSite 2) 100 roamer 0),
      ∃ net₂ ∈ mesh.run net₁ (settle [2]), ∀ R ∈ mesh.sites, R ≠ meshSite 2 →
        ∃ route, (net₂ R).routes (.mac 100 roamer) = some ⟨route, meshSite 2⟩ ∧
          route.sequence = 1 := by
  have hrun : ∃ net₀ ∈ mesh.start,
      ∃ net ∈ mesh.run net₀ ([.frame (meshSite 1) 100 roamer 0] ++ settle [1]), mesh.Quiet net ∧
      ∃ net₁ ∈ mesh.step net (.frame (meshSite 2) 100 roamer 0),
      ∃ m ∈ (net₁ (meshSite 2)).macs.lookup (.mac 100 roamer), m.sequence = 1 ∧
      (∀ T ∈ mesh.sites, T ≠ meshSite 2 → ∀ q ∈ mesh.numbers net T (.mac 100 roamer),
        ∃ q' ∈ net.sent T (meshSite 2) (.mac 100 roamer), q ≤ q') ∧
      (∀ T ∈ mesh.sites, T ≠ meshSite 2 →
        net.sent T (meshSite 2) (.mac 100 roamer) = some m.sequence →
        text (meshSite 2) < text T) ∧
      mesh.keeps (meshSite 2) (.mac 100 roamer) net₁ (settle [2]) = true ∧
      ∃ net₂ ∈ mesh.run net₁ (settle [2]),
        (∀ R ∈ mesh.sites, R ≠ meshSite 2 → mesh.Published net₂ (meshSite 2) R (.mac 100 roamer)) ∧
        ∀ R ∈ mesh.sites, R ≠ meshSite 2 → net₂.Delivered (meshSite 2) R (.mac 100 roamer) := by
    decide +kernel
  obtain ⟨net₀, hstart, net, hhistory, hquiet, net₁, hframe, m, hm, hsequence, hsent, htie, hkept,
    net₂, hlater, hpublished, hdelivered⟩ := hrun
  refine ⟨net₀, hstart, net, hhistory, net₁, hframe, net₂, hlater, fun R hR hne => ?_⟩
  obtain ⟨route, hroute, hnumber⟩ := select_converges mesh_proper hstart hhistory hquiet
    (show 100 ∈ (mesh.config (meshSite 2)).evis by decide) hframe hm hsent htie
    (fun T now hmem => absurd hmem settle_no_frame) hkept hlater hpublished hdelivered hR hne
    (show 100 ∈ (mesh.config R).evis from (show 100 ∈ [100] by decide))
  exact ⟨route, hroute, hnumber.trans hsequence⟩

/-- Two sites that learn the host before they know of each other take the same number. When the host
is heard at the second one again, it does not raise its number, and the third site stays with the
first one. -/
theorem tie_keeps_old_site :
    ∃ net₀ ∈ mesh.start, ∃ net ∈ mesh.run net₀ ([.frame (meshSite 1) 100 roamer 0,
        .frame (meshSite 2) 100 roamer 0] ++ settle [1, 2]), mesh.Quiet net ∧
      ∃ net₁ ∈ mesh.step net (.frame (meshSite 2) 100 roamer 0),
        mesh.keeps (meshSite 2) (.mac 100 roamer) net₁ (settle [2]) = true ∧
      ∃ net₂ ∈ mesh.run net₁ (settle [2]),
        (∀ R ∈ mesh.sites, R ≠ meshSite 2 →
          mesh.Published net₂ (meshSite 2) R (.mac 100 roamer) ∧
            net₂.Delivered (meshSite 2) R (.mac 100 roamer)) ∧
        ((net₂ (meshSite 3)).routes (.mac 100 roamer)).map Entry.peer = some (meshSite 1) := by
  decide +kernel

end

end StarFabric.Evpn

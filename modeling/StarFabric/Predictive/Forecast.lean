import StarFabric.Predictive.Engine
import StarFabric.Planner.Lifetime
import StarFabric.Topology.Atomic
import Mathlib.Data.List.Destutter

/-!
# What a schedule holds at its instants

The boundaries of a schedule are the starts and ends of the windows, so that the topology stays the
same from one boundary to the next (`schedule_boundaries`). A link with windows is up by one of
them, the last one in the list that covers the instant, and ends with it. So do the plans over the
link (`schedule_inside_window`). But a plan is acted on `lead` before its boundary, when the window
that it counts on may not have begun (`activated_before_contact`).
-/

namespace StarFabric.Predictive

open ExceptFold Go List Nat Option Policy

variable {e : Engine} {p : Planner} {clock now t u : Time} {base s : TopologySnapshot}
  {windows : List ContactWindow} {intents : List RouteIntent} {horizon : Duration}
  {out : List Activation} {a : Activation} {w : ContactWindow}

/-! ### The loop over the boundaries -/

/-- What the loop of `Schedule` makes of the boundary at `index`, with `next` after it: a plan for
the topology at that boundary, which the validator accepts there. -/
structure Activation.Of (e : Engine) (p : Planner) (clock : Time) (base : TopologySnapshot)
    (windows : List ContactWindow) (intents : List RouteIntent) (now : Time) (index : ℕ)
    (next : Option Time) (a : Activation) : Prop where
  activateAt_eq : a.activateAt = Predictive.activateAt e.lead now a.topologyAt
  topology_eq : snapshotAt base windows a.topologyAt (next.getD 0)
    (base.version + index.toUInt64) = .ok a.topology
  built : Planner.build e.digest p clock a.topology intents a.topologyAt = .ok a.plan
  accepted : Validation.plan a.plan a.topology a.topologyAt = .ok ()

theorem forecast_spec {index : ℕ} {previous : Option RoutePlan} {times : List Time}
    (h : forecast e p clock base windows intents now index previous times = .ok out) :
    out.map Activation.topologyAt = times ∧ ∀ k (a : Activation), out[k]? = some a →
      a.Of e p clock base windows intents now (index + k) times[k + 1]? := by
  induction times generalizing index previous out with
  | nil =>
    cases h
    exact ⟨rfl, nofun⟩
  | cons at_ rest ih =>
    unfold forecast at h
    simp only [bind_eq_ok, Planner.check, mapError_eq_ok] at h
    obtain ⟨snapshot, hsnapshot, plan, hplan, _, hvalid, more, hmore, hout⟩ := h
    cases hout
    obtain ⟨htimes, hmore⟩ := ih hmore
    refine ⟨congrArg _ htimes, fun k a ha => ?_⟩
    cases k with
    | zero =>
      cases ha
      rw [head?_eq_getElem?] at hsnapshot
      exact ⟨rfl, hsnapshot, hplan, hvalid⟩
    | succ k =>
      have hof := hmore k a ha
      rwa [add_assoc, add_comm 1] at hof

theorem schedule_spec (h : schedule e clock base windows intents now horizon = .ok out) :
    ∃ p, e.planner = some p ∧ 0 ≤ e.lead ∧
      out.map Activation.topologyAt = boundaries windows now horizon ∧
      ∀ k (a : Activation), out[k]? = some a → a.Of e p clock base windows intents now k
        (boundaries windows now horizon)[k + 1]? := by
  unfold schedule at h
  cases hp : e.planner with
  | none =>
    rw [hp] at h
    cases h
  | some p =>
    rw [hp] at h
    split_ifs at h with _ hlead
    obtain ⟨-, -, hforecast⟩ := bind_eq_ok.mp h
    obtain ⟨htimes, hof⟩ := forecast_spec hforecast
    refine ⟨p, rfl, not_lt.mp hlead, htimes, fun k a ha => ?_⟩
    have hk := hof k a ha
    rwa [zero_add] at hk

/-! ### The boundaries -/

theorem boundaries_eq_dedup : boundaries windows now horizon =
    ((now :: (windows.flatMap fun w => [w.start, w.end_]).filter fun boundary =>
      now < boundary && !(now + horizon < boundary)).insertionSort (· ≤ ·)).dedup :=
  (pairwise_insertionSort _ _).destutter_eq_dedup

theorem boundaries_sorted : (boundaries windows now horizon).Pairwise (· < ·) := by
  rw [boundaries_eq_dedup]
  have hle := (pairwise_insertionSort (· ≤ ·) (now :: (windows.flatMap fun w =>
    [w.start, w.end_]).filter fun b => now < b && !(now + horizon < b))).sublist (dedup_sublist _)
  exact (hle.and (nodup_dedup _)).imp fun h => lt_of_le_of_ne h.1 h.2

theorem mem_boundaries {b : Time} : b ∈ boundaries windows now horizon ↔ b = now ∨
    (∃ w ∈ windows, b = w.start ∨ b = w.end_) ∧ now < b ∧ b ≤ now + horizon := by
  rw [boundaries_eq_dedup, mem_dedup, mem_insertionSort]
  simp

/-- In a strictly sorted list the element after `b` is at most any larger one. -/
theorem next_le {l : List Time} (hl : l.Pairwise (· < ·)) {k : ℕ} {b c : Time}
    (hk : l[k]? = some b) (hc : c ∈ l) (hlt : b < c) :
    ∃ next, l[k + 1]? = some next ∧ next ≤ c := by
  obtain ⟨j, hj, rfl⟩ := getElem_of_mem hc
  have hmono := pairwise_iff_getElem.mp hl
  have hkj : k < j := by
    by_contra hjk
    grind
  grind

/-! ### The topology between two boundaries -/

theorem covers_iff : w.covers t = true ↔ w.start ≤ t ∧ t < w.end_ := by
  unfold ContactWindow.covers
  simp

/-- Without a start or an end of a window after `u` and up to `t`, the same windows cover both. -/
theorem covers_eq (hut : u ≤ t) (hstart : u < w.start → t < w.start)
    (hend : u < w.end_ → t < w.end_) : w.covers t = w.covers u := by
  grind [ContactWindow.covers]

section Congr

variable (hcovers : ∀ w ∈ windows, w.covers t = w.covers u)

include hcovers

theorem foldlM_placeWindow_congr (placed : Placed) :
    windows.foldlM (placeWindow t) placed = windows.foldlM (placeWindow u) placed := by
  induction windows generalizing placed with
  | nil => rfl
  | cons w rest ih =>
    have hround : placeWindow t placed w = placeWindow u placed w := by
      grind [placeWindow]
    rw [foldlM_cons, foldlM_cons, hround]
    exact bind_congr (ih (forall_mem_cons.mp hcovers).2)

theorem closeLink_congr : closeLink windows t = closeLink windows u := by
  funext byID links id
  unfold closeLink
  congr 2
  grind

/-- The links of a topology depend on the instant only through the windows that cover it. -/
theorem snapshotAt_congr {until_ until' : Time} {version version' : UInt64}
    (hversion : version' ≠ 0) (h : snapshotAt base windows u until_ version = .ok s) :
    ∃ s', snapshotAt base windows t until' version' = .ok s' ∧ s'.links = s.links := by
  unfold snapshotAt at h ⊢
  rw [foldlM_placeWindow_congr hcovers, closeLink_congr hcovers]
  obtain ⟨placed, hplaced, h⟩ := bind_eq_ok.mp h
  obtain ⟨_, hvalid, hs⟩ := bind_eq_ok.mp h
  cases hs
  have hbase := TopologySnapshot.validate_eq_ok_iff.mp hvalid
  have hvalid' : TopologySnapshot.validate { base with
      version := version', generatedAt := t, validFrom := t, validUntil := until'
      links := (windows.map fun w => w.link.id).foldl (closeLink windows u placed.byID)
        placed.links } = .ok () :=
    TopologySnapshot.validate_eq_ok_iff.mpr { hbase with version_ne := hversion }
  exact ⟨_, bind_eq_ok.mpr ⟨placed, hplaced, bind_eq_ok.mpr ⟨(), hvalid', rfl⟩⟩, rfl⟩

end Congr

theorem snapshotAt_spec {until_ : Time} {version : UInt64}
    (h : snapshotAt base windows t until_ version = .ok s) :
    s.version = version ∧ s.validUntil = until_ ∧ s.Valid := by
  obtain ⟨placed, -, h⟩ := bind_eq_ok.mp h
  obtain ⟨_, hvalid, hs⟩ := bind_eq_ok.mp h
  cases hs
  exact ⟨rfl, rfl, TopologySnapshot.validate_eq_ok_iff.mp hvalid⟩

/-! ### The order of the activations -/

theorem activateAt_eq_max {lead : Duration} (hlead : 0 ≤ lead) (hnow : now ≤ t) :
    activateAt lead now t = max now (t - lead) := by
  grind [activateAt]

theorem toNat_version_succ {v : UInt64} {k : ℕ} (h : v + (k + 1).toUInt64 ≠ 0) :
    (v + (k + 1).toUInt64).toNat = (v + k.toUInt64).toNat + 1 := by
  have hsucc : v + (k + 1).toUInt64 = v + k.toUInt64 + 1 := by
    rw [toUInt64_eq, toUInt64_eq, UInt64.ofNat_add, UInt64.add_assoc]
    rfl
  rw [hsucc] at h ⊢
  exact Topology.toNat_succ_of_ne_zero h

section Schedule

variable {k : ℕ}

section

variable (h : out.map Activation.topologyAt = boundaries windows now horizon)
  (ha : out[k]? = some a)
include h ha

theorem boundary_eq : (boundaries windows now horizon)[k]? = some a.topologyAt := by
  rw [← h, getElem?_map, ha]
  rfl

theorem now_le_topologyAt : now ≤ a.topologyAt := by
  rcases mem_boundaries.mp (mem_of_getElem? (boundary_eq h ha)) with heq | ⟨-, hlt, -⟩
  · exact heq.ge
  · exact hlt.le

theorem topologyAt_lt {b : Activation} (hb : out[k + 1]? = some b) :
    a.topologyAt < b.topologyAt := by
  obtain ⟨hk, hka⟩ := List.getElem?_eq_some_iff.mp (boundary_eq h ha)
  obtain ⟨hk', hkb⟩ := List.getElem?_eq_some_iff.mp (boundary_eq h hb)
  rw [← hka, ← hkb]
  exact List.pairwise_iff_getElem.mp boundaries_sorted k (k + 1) hk hk' (lt_succ_self k)

end

/-- **The boundaries are enough.** From one boundary up to the next, and up to the end of the
horizon after the last one, the links are those of the activation. The versions go up by one, and
the activations are in order, neither before `now` nor after the topology they are for. -/
theorem schedule_boundaries (h : schedule e clock base windows intents now horizon = .ok out)
    (ha : out[k]? = some a) :
    now ≤ a.activateAt ∧ a.activateAt ≤ a.topologyAt ∧
      (∀ b, out[k + 1]? = some b →
        b.topology.version.toNat = a.topology.version.toNat + 1 ∧
          a.topologyAt < b.topologyAt ∧ a.activateAt ≤ b.activateAt) ∧
      ∀ t, a.topologyAt ≤ t → t ≤ now + horizon →
        (∀ b, out[k + 1]? = some b → t < b.topologyAt) → ∀ until_ version, version ≠ 0 →
          ∃ s, snapshotAt base windows t until_ version = .ok s ∧ s.links = a.topology.links := by
  obtain ⟨p, -, hlead, htimes, hof⟩ := schedule_spec h
  have hactivate : ∀ {k : ℕ} {a : Activation}, out[k]? = some a →
      a.activateAt = max now (a.topologyAt - e.lead) := fun ha =>
    (hof _ _ ha).activateAt_eq.trans (activateAt_eq_max hlead (now_le_topologyAt htimes ha))
  refine ⟨?_, ?_, fun b hb => ?_, fun t hat hlimit hnext until_ version hversion => ?_⟩
  · rw [hactivate ha]
    exact le_max_left now _
  · rw [hactivate ha]
    exact max_le (now_le_topologyAt htimes ha) (sub_le_self _ hlead)
  · have hlt : a.topologyAt < b.topologyAt := topologyAt_lt htimes ha hb
    refine ⟨?_, hlt, ?_⟩
    · obtain ⟨hversion, -, -⟩ := snapshotAt_spec (hof _ _ ha).topology_eq
      obtain ⟨hversion', -, hvalid⟩ := snapshotAt_spec (hof _ _ hb).topology_eq
      rw [hversion, hversion']
      exact toNat_version_succ (hversion' ▸ hvalid.version_ne)
    · rw [hactivate ha, hactivate hb]
      exact max_le_max_left now (sub_le_sub_right hlt.le e.lead)
  · -- a start or an end after the boundary is not before the next one
    have hlater : ∀ c, (∃ w ∈ windows, c = w.start ∨ c = w.end_) → a.topologyAt < c → t < c := by
      intro c hc hlt
      by_contra hle
      have hmem : c ∈ boundaries windows now horizon := mem_boundaries.mpr
        (.inr ⟨hc, (now_le_topologyAt htimes ha).trans_lt hlt, (not_lt.mp hle).trans hlimit⟩)
      obtain ⟨next, hget, hnextc⟩ := next_le boundaries_sorted (boundary_eq htimes ha) hmem hlt
      rw [← htimes, getElem?_map, map_eq_some_iff] at hget
      obtain ⟨b, hb, rfl⟩ := hget
      exact hle ((hnext b hb).trans_le hnextc)
    exact snapshotAt_congr (fun w hw => covers_eq hat (hlater w.start ⟨w, hw, .inl rfl⟩)
      (hlater w.end_ ⟨w, hw, .inr rfl⟩)) hversion (hof k a ha).topology_eq

end Schedule

/-! ### Which window a link is up by -/

/-- The window covers the instant, and its end is that of the link. -/
structure ContactWindow.Governs (w : ContactWindow) (at_ : Time) (link : Link) : Prop where
  id : w.link.id = link.id
  covers : w.covers at_ = true
  ends : link.validUntil = w.end_ ∧ link.availabilityEnd = w.end_

/-- The invariant of the first loop of `SnapshotAt`, after the windows in `done`. -/
structure Tracks (at_ : Time) (done : List ContactWindow) (placed : Placed) : Prop where
  index : ∀ id i, placed.byID.lookup id = some i →
    ∃ link, placed.links[i]? = some link ∧ link.id = id
  known : ∀ w ∈ done, placed.byID.lookup w.link.id ≠ none
  governed : ∀ w ∈ done, w.covers at_ = true → ∀ i link, placed.byID.lookup w.link.id = some i →
    placed.links[i]? = some link → ∃ last ∈ done, last.Governs at_ link

section Tracks

variable {placed placed' : Placed} {done : List ContactWindow} {i : ℕ}

theorem lookup_insert (m : Map ℕ) (k k' : String) (i : ℕ) :
    (m.insert k i).lookup k' = if k' = k then some i else m.lookup k' := by
  split_ifs with h
  · rw [h, AList.lookup_insert]
  · rw [AList.lookup_insert_ne h]

theorem index_indexLinks (links : List Link) : ∀ id i, (indexLinks links).lookup id = some i →
    ∃ link, links[i]? = some link ∧ link.id = id := by
  refine foldlRecOn (motive := fun byID : Map ℕ => ∀ id i, byID.lookup id = some i →
    ∃ link, links[i]? = some link ∧ link.id = id) links.zipIdx ?_ ?_ fun byID h entry hentry => ?_
  · simp
  · have hget := mem_zipIdx_iff_getElem?.mp hentry
    grind [lookup_insert]

theorem Tracks.add (h : Tracks t done placed) (hw : placed.byID.lookup w.link.id = none) :
    Tracks t done ⟨placed.links ++ [w.link], placed.byID.insert w.link.id placed.links.length⟩ := by
  obtain ⟨hindex, hknown, hgoverned⟩ := h
  -- the index of a window that was placed before is another one
  constructor <;> grind [lookup_insert]

theorem Tracks.skip (h : Tracks t done placed) (hw : placed.byID.lookup w.link.id ≠ none)
    (hcovers : ¬ w.covers t = true) : Tracks t (done ++ [w]) placed := by
  obtain ⟨hindex, hknown, hgoverned⟩ := h
  constructor <;> grind

theorem Tracks.set (h : Tracks t done placed) (hi : placed.byID.lookup w.link.id = some i)
    {link : Link} (hgoverns : w.Governs t link) :
    Tracks t (done ++ [w]) { placed with links := placed.links.set i link } := by
  obtain ⟨hindex, hknown, hgoverned⟩ := h
  -- the link that is replaced has the same id
  have hid := hgoverns.id
  constructor <;> grind

theorem Tracks.place (h : Tracks t done placed) (hround : placeWindow t placed w = .ok placed') :
    Tracks t (done ++ [w]) placed' := by
  obtain ⟨_, -, hround⟩ := bind_eq_ok.mp hround
  cases hw : placed.byID.lookup w.link.id with
  | some i =>
    rw [hw] at hround
    split_ifs at hround with hcovers
    · cases hround
      rw [hw]
      exact h.set hw ⟨rfl, hcovers, rfl, rfl⟩
    · cases hround
      exact h.skip (hw.trans_ne nofun) hcovers
  | none =>
    have hadded : (placed.byID.insert w.link.id placed.links.length).lookup w.link.id = _ :=
      AList.lookup_insert _
    rw [hw] at hround
    split_ifs at hround with hcovers
    · cases hround
      rw [hadded]
      exact (h.add hw).set hadded ⟨rfl, hcovers, rfl, rfl⟩
    · cases hround
      exact (h.add hw).skip (hadded.trans_ne nofun) hcovers

/-- What the second loop does with the link at an index. -/
theorem closeLinks_spec {byID : Map ℕ} {links : List Link} {ids : List String} {link : Link}
    (h : (ids.foldl (closeLink windows t byID) links)[i]? = some link) :
    ∃ old, links[i]? = some old ∧ link = { old with operationalUp := link.operationalUp } ∧
      (link.operationalUp = true → old.operationalUp = true ∧ ∀ id ∈ ids,
        byID.lookup id = some i → ∃ w ∈ windows, w.link.id = id ∧ w.covers t = true) := by
  induction ids generalizing links with
  | nil => exact ⟨link, h, rfl, fun hup => ⟨hup, nofun⟩⟩
  | cons id rest ih =>
    obtain ⟨mid, hmid, hlink, hrest⟩ := ih h
    unfold closeLink at hmid
    grind

theorem map_id_closeLinks {byID : Map ℕ} (ids : List String) (links : List Link) :
    (ids.foldl (closeLink windows t byID) links).map Link.id = links.map Link.id := by
  induction ids generalizing links with
  | nil => rfl
  | cons id rest ih =>
    rw [foldl_cons, ih]
    unfold closeLink
    split_ifs
    · rfl
    · exact ext_getElem? fun i => by grind

end Tracks

/-- **A link with contact windows is up by one of them.** -/
theorem governs_of_up {until_ : Time} {version : UInt64}
    (h : snapshotAt base windows t until_ version = .ok s) {link : Link} (hlink : link ∈ s.links)
    (hup : link.operationalUp = true) (hw : w ∈ windows) (hid : w.link.id = link.id) :
    ∃ last ∈ windows, last.Governs t link := by
  have hnodup := (snapshotAt_spec h).2.2.link_nodup
  obtain ⟨placed, hplaced, h⟩ := bind_eq_ok.mp h
  obtain ⟨_, -, hs⟩ := bind_eq_ok.mp h
  cases hs
  rw [map_id_closeLinks] at hnodup
  have htracks : Tracks t windows placed := foldlM_history
    (fun done w b b' hb hround => hb.place hround) []
    ⟨index_indexLinks base.links, nofun, nofun⟩ hplaced
  obtain ⟨j, hj⟩ := mem_iff_getElem?.mp hlink
  obtain ⟨old, hold, hlink, hclosed⟩ := closeLinks_spec hj
  obtain ⟨i, hi⟩ := ne_none_iff_exists'.mp (htracks.known w hw)
  -- the ids of the links are distinct, so that the link is the one of the window
  obtain rfl : i = j := by
    obtain ⟨found, hfound, hidfound⟩ := htracks.index _ i hi
    have hlt : i < (placed.links.map Link.id).length := by grind
    refine (getElem?_inj hlt hnodup).mp ?_
    rw [getElem?_map, getElem?_map, hfound, hold, map_some, hidfound, hid, hlink]
    rfl
  obtain ⟨w', hw', hid', hcovers⟩ := (hclosed hup).2 _ (mem_map_of_mem hw) hi
  obtain ⟨last, hlast, hgoverns⟩ := htracks.governed w' hw' hcovers i old (hid' ▸ hi) hold
  refine ⟨last, hlast, ?_, hgoverns.covers, ?_⟩
  · rw [hgoverns.id, hlink]
  · rw [hlink]
    exact hgoverns.ends

/-! ### Plans and contacts -/

section

variable {k : ℕ} {next : Option Time} {id : String} {paths : List Path} {path : Path}
  {linkID : String}

theorem Activation.Of.window (hsound : p.policies.Sound)
    (h : a.Of e p clock base windows intents now k next)
    (hpaths : a.plan.paths.lookup id = some paths) (hpath : path ∈ paths)
    (hlink : linkID ∈ path.links) (hw : w ∈ windows) (hid : w.link.id = linkID) :
    ∃ w ∈ windows, w.link.id = linkID ∧ w.covers a.topologyAt = true ∧
      (w.end_ = 0 ∨ a.plan.expiresAt ≤ w.end_) := by
  obtain ⟨rounds, draft, hbuilt⟩ := Planner.build_run h.built
  obtain ⟨r, hr, -, rfl⟩ := hbuilt.records.mem_paths id paths hpaths
  -- the link is usable up to the last instant of the plan
  obtain ⟨link, hmem, rfl, husable⟩ :=
    hbuilt.usable hsound hr hpath hlink (sub_one_lt a.plan.expiresAt)
  obtain ⟨last, hlast, hgoverns⟩ := governs_of_up h.topology_eq hmem husable.up.2 hw hid
  refine ⟨last, hlast, hgoverns.id, hgoverns.covers, ?_⟩
  rw [← hgoverns.ends.1]
  exact husable.validUntil.imp_right Int.le_of_sub_one_lt

/-- **Plans stay inside their contacts.** From the zero instant on, one window of each link of a
path, if it has any, holds from the topology of the plan to the end of the plan, and the plan
ends by the next boundary. -/
theorem schedule_inside_window (hp : e.planner = some p) (hsound : p.policies.Sound)
    (hnow : 0 ≤ now) (h : schedule e clock base windows intents now horizon = .ok out)
    (ha : out[k]? = some a) :
    (∀ b, out[k + 1]? = some b → a.plan.expiresAt ≤ b.topologyAt) ∧
      ∀ id paths, a.plan.paths.lookup id = some paths → ∀ path ∈ paths, ∀ linkID ∈ path.links,
        (∃ w ∈ windows, w.link.id = linkID) → ∃ w ∈ windows, w.link.id = linkID ∧
          w.start ≤ a.topologyAt ∧ a.plan.expiresAt ≤ w.end_ := by
  obtain ⟨p', hp', -, htimes, hof⟩ := schedule_spec h
  cases hp.symm.trans hp'
  have hof := hof k a ha
  have hnow' : 0 ≤ a.topologyAt := hnow.trans (now_le_topologyAt htimes ha)
  refine ⟨fun b hb => ?_, fun id paths hpaths path hpath linkID hlink ⟨w, hw, hid⟩ => ?_⟩
  · obtain ⟨rounds, draft, hbuilt⟩ := Planner.build_run hof.built
    have hnext : a.topology.validUntil = b.topologyAt := by
      rw [(snapshotAt_spec hof.topology_eq).2.1, boundary_eq htimes hb]
      rfl
    rw [← hnext]
    refine hbuilt.expiresAt_le.2 ?_
    rw [hnext]
    exact (hnow'.trans_lt (topologyAt_lt htimes ha hb)).ne'
  · obtain ⟨w, hw, hid, hcovers, hends⟩ := hof.window hsound hpaths hpath hlink hw hid
    obtain ⟨hstart, hend⟩ := covers_iff.mp hcovers
    exact ⟨w, hw, hid, hstart, hends.resolve_left (hnow'.trans_lt hend).ne'⟩

end

/-! ### A contact beside a slow link -/

def relayBase : TopologySnapshot where
  version := 1
  nodes := [{ id := "s", loopback := "10.0.0.1", enabled := true },
    { id := "d", loopback := "10.0.0.2", enabled := true }]
  links := [{ id := "slow", source := "s", target := "d", adminUp := true, operationalUp := true
              latencyUS := 50, capacityBPS := 100 }]

/-- A faster link from the instant `start` to the instant `end_`. -/
def relayContact (start end_ : Time) : ContactWindow where
  link := { id := "fast", source := "s", target := "d", adminUp := true, operationalUp := true
            latencyUS := 5, capacityBPS := 100 }
  start := start
  end_ := end_

def relayEngine : Engine where
  planner := some (Planner.new {})
  lead := 10
  digest := fun _ => "0"
  format := fun _ => ""

def relaySchedule (contact : ContactWindow) (now : Time) (horizon : Duration) :
    Except Failure (List Activation) :=
  schedule relayEngine 1 relayBase [contact]
    [{ id := "i", source := "s", destination := "d", destinationPrefix := "10.1.0.0/16" }] now
    horizon

def Activation.summary (a : Activation) : List Time × Option (List (List String)) :=
  ([a.activateAt, a.topologyAt, a.plan.expiresAt],
    (a.plan.paths.lookup "i").map fun paths => paths.map Path.links)

theorem relay_uses_fast {contact : ContactWindow} {k : ℕ} {times : List Time}
    (h : ((relaySchedule contact now horizon).toOption.bind (·[k]?)).map Activation.summary =
      some (times, some [["fast"]])) :
    ∃ out a path, relaySchedule contact now horizon = .ok out ∧ out[k]? = some a ∧
      a.plan.paths.lookup "i" = some [path] ∧ path.links = ["fast"] ∧
        [a.activateAt, a.topologyAt, a.plan.expiresAt] = times := by
  obtain ⟨a, hget, hsummary⟩ := map_eq_some_iff.mp h
  obtain ⟨out, hout, ha⟩ := bind_eq_some_iff.mp hget
  obtain ⟨htimes, hlinks⟩ := Prod.mk.inj hsummary
  obtain ⟨paths, hpaths, hmap⟩ := map_eq_some_iff.mp hlinks
  obtain ⟨path, rest, rfl, hpath, hrest⟩ := map_eq_cons_iff.mp hmap
  obtain rfl := map_eq_nil_iff.mp hrest
  exact ⟨out, a, path, eq_ok_of_toOption hout, ha, hpaths, hpath, htimes⟩

theorem relay_second : ((relaySchedule (relayContact 100 200) 1 150).toOption.bind (·[1]?)).map
    Activation.summary = some ([90, 100, 200], some [["fast"]]) := by decide +kernel

theorem schedule_boundaries_relay : ∃ out a,
    relaySchedule (relayContact 100 200) 1 150 = .ok out ∧ out[1]? = some a ∧
      1 ≤ a.activateAt ∧ a.activateAt ≤ a.topologyAt := by
  obtain ⟨out, a, path, hout, ha, -⟩ := relay_uses_fast relay_second
  obtain ⟨hnow, hle, -⟩ := schedule_boundaries hout ha
  exact ⟨out, a, hout, ha, hnow, hle⟩

theorem schedule_inside_window_relay : ∃ out a w,
    relaySchedule (relayContact 100 200) 1 150 = .ok out ∧ out[1]? = some a ∧
      w ∈ [relayContact 100 200] ∧ w.start ≤ a.topologyAt ∧ a.plan.expiresAt ≤ w.end_ := by
  obtain ⟨out, a, path, hout, ha, hpaths, hlinks, -⟩ := relay_uses_fast relay_second
  obtain ⟨w, hw, -, hinside⟩ := (schedule_inside_window rfl (Planner.new_sound rfl) (by decide)
    hout ha).2 "i" [path] hpaths path mem_cons_self "fast" (hlinks ▸ mem_cons_self)
      ⟨_, mem_cons_self, rfl⟩
  exact ⟨out, a, w, hout, ha, hw, hinside⟩

/-- **A contact that ends at the zero instant**, which for a link stands for no end. -/
theorem zero_end_outlived : ∃ out a path,
    relaySchedule (relayContact (-10) 0) (-5) 3 = .ok out ∧ out[0]? = some a ∧
      a.plan.paths.lookup "i" = some [path] ∧ path.links = ["fast"] ∧
      (relayContact (-10) 0).end_ < a.plan.expiresAt := by
  have hfirst : ((relaySchedule (relayContact (-10) 0) (-5) 3).toOption.bind (·[0]?)).map
      Activation.summary = some ([-5, -5, 30 * second - 5], some [["fast"]]) := by decide +kernel
  obtain ⟨out, a, path, hout, ha, hpaths, hlinks, htimes⟩ := relay_uses_fast hfirst
  have hexpires : a.plan.expiresAt = 30 * second - 5 :=
    (cons.inj (cons.inj (cons.inj htimes).2).2).1
  refine ⟨out, a, path, hout, ha, hpaths, hlinks, ?_⟩
  rw [hexpires]
  decide

end StarFabric.Predictive

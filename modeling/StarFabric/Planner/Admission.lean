import StarFabric.Planner.Rounds
import StarFabric.Lib.Keyed

/-!
# Bandwidth admission

The planner works on a copy of the topology whose capacities it lowers as it goes. `Accounted` says
that the copy is the input with the booked reservations taken off, and that what is booked on a link
is zero or at most its capacity. A round preserves it (`Round.Succeeds.accounted`). A link whose
capacity in the input is negative is never used, and keeps it.
-/

namespace StarFabric.Planner

open Go Policy ExceptFold Function List

def charge (reservations : Map Int64) (link : Link) : Link :=
  { link with capacityBPS := link.capacityBPS - reserved reservations link.id }

def charged (snapshot : TopologySnapshot) (reservations : Map Int64) : TopologySnapshot :=
  { snapshot with links := snapshot.links.map (charge reservations) }

/-- The copy is the input with the bookings taken off, and nothing is overbooked. -/
structure Accounted (snapshot : TopologySnapshot) (draft : Draft) : Prop where
  residual_eq : draft.residual = charged snapshot draft.reservations
  booked : ∀ link ∈ snapshot.links, reserved draft.reservations link.id = 0 ∨
    (0 < reserved draft.reservations link.id ∧
      reserved draft.reservations link.id ≤ link.capacityBPS)

section Charge

variable {snapshot : TopologySnapshot} {reservations : Map Int64} {link : Link}

theorem charge_map_id (links : List Link) :
    (links.map (charge reservations)).map Link.id = links.map Link.id := by
  rw [map_map]
  rfl

theorem charged_valid (h : snapshot.Valid) : (charged snapshot reservations).Valid where
  version_ne := h.version_ne
  node_id := h.node_id
  node_nodup := h.node_nodup
  link_text := forall_mem_map.mpr h.link_text
  link_ends := forall_mem_map.mpr h.link_ends
  link_source := forall_mem_map.mpr h.link_source
  link_target := forall_mem_map.mpr h.link_target
  link_nodup := (charge_map_id snapshot.links).symm ▸ h.link_nodup
  groups := forall_mem_map.mpr h.groups

variable {demand : Int64}

theorem reserveLink_charged (hvalid : snapshot.Valid) (hlink : link ∈ snapshot.links) :
    ∃ reservations', reserveLink demand (snapshot.links.map (charge reservations), reservations)
        link.id = (snapshot.links.map (charge reservations'), reservations') ∧
      ∀ id, reserved reservations' id =
        if id = link.id then reserved reservations id + demand else reserved reservations id := by
  unfold reserveLink
  cases hidx : (snapshot.links.map (charge reservations)).findIdx? fun l => l.id = link.id with
  | none =>
    rw [findIdx?_eq_none_iff] at hidx
    have := hidx _ (mem_map_of_mem hlink)
    simp [charge] at this
  | some i =>
    have hreserved : ∀ id, reserved (reservations.insert link.id
        (reserved reservations link.id + demand)) id =
        if id = link.id then reserved reservations id + demand else reserved reservations id := by
      intro id
      unfold reserved
      by_cases hid : id = link.id
      · rw [if_pos hid, hid, AList.lookup_insert]
        rfl
      · rw [if_neg hid, AList.lookup_insert_ne hid]
    refine ⟨_, Prod.ext ?_ rfl, hreserved⟩
    dsimp only
    rw [Keyed.modify_eq_map (charge_map_id snapshot.links ▸ hvalid.link_nodup) hidx, map_map]
    refine map_congr_left fun l _ => ?_
    by_cases hl : l.id = link.id
    · simp only [comp_apply, charge, hl, if_pos, hreserved, Int64.sub_sub]
    · simp only [comp_apply, charge, hl, if_false, hreserved]

theorem foldl_reserveLink (hvalid : snapshot.Valid) {ids : List String}
    (hids : ∀ id ∈ ids, id ∈ snapshot.links.map Link.id) (hnodup : ids.Nodup) :
    ∃ reservations', ids.foldl (reserveLink demand)
        (snapshot.links.map (charge reservations), reservations) =
          (snapshot.links.map (charge reservations'), reservations') ∧
      ∀ id, reserved reservations' id =
        if id ∈ ids then reserved reservations id + demand else reserved reservations id := by
  induction ids generalizing reservations with
  | nil => exact ⟨reservations, rfl, fun id => by simp⟩
  | cons head ids ih =>
    rw [nodup_cons] at hnodup
    obtain ⟨link, hlink, rfl⟩ := mem_map.mp (hids head mem_cons_self)
    obtain ⟨middle, hmiddle, hbook⟩ := reserveLink_charged hvalid hlink
    obtain ⟨reservations', hfold, hbook'⟩ :=
      ih (fun id hid => hids id (mem_cons_of_mem _ hid)) hnodup.2
    refine ⟨reservations', by rw [foldl_cons, hmiddle, hfold], fun id => ?_⟩
    rw [hbook', hbook]
    by_cases hid : id = link.id
    · rw [if_neg (hid ▸ hnodup.1), if_pos hid, if_pos (hid ▸ mem_cons_self)]
    · simp only [hid, if_false, mem_cons, false_or]

end Charge

section Accounted

variable {snapshot : TopologySnapshot} {draft : Draft} {link : Link}

theorem Accounted.residual_valid (h : Accounted snapshot draft) (hvalid : snapshot.Valid) :
    draft.residual.Valid := h.residual_eq ▸ charged_valid hvalid

theorem accounted_start (p : Planner) (snapshot : TopologySnapshot) (now : Time) :
    Accounted snapshot (startDraft p snapshot now) where
  residual_eq := by
    have hcharge : ∀ link ∈ snapshot.links, charge ∅ link = link := fun link _ => by
      simp [charge, reserved]
    simp only [startDraft, charged, map_congr_left hcharge, map_id']
  booked link _ := .inl (by simp [startDraft, reserved])

theorem Accounted.toInt_charge (h : Accounted snapshot draft) (hlink : link ∈ snapshot.links) :
    (charge draft.reservations link).capacityBPS.toInt =
      link.capacityBPS.toInt - (reserved draft.reservations link.id).toInt := by
  rcases h.booked link hlink with hzero | ⟨hpos, hle⟩
  · rw [charge, hzero]
    simp
  · exact Int64.toInt_sub_of_le _ _ hpos.le hle

theorem Accounted.capacity_pos (h : Accounted snapshot draft) (hlink : link ∈ snapshot.links)
    (hpos : 0 < (charge draft.reservations link).capacityBPS) : 0 < link.capacityBPS := by
  have hzero : (0 : Int64).toInt = 0 := rfl
  rw [Int64.lt_iff_toInt_lt, h.toInt_charge hlink] at hpos
  rw [Int64.lt_iff_toInt_lt]
  rcases h.booked link hlink with hnone | ⟨hbooked, -⟩
  · rw [hnone] at hpos
    omega
  · rw [Int64.lt_iff_toInt_lt] at hbooked
    omega

theorem Accounted.admitted (h : Accounted snapshot draft) {intent : RouteIntent}
    {options : Options} {path : Path} {links : List Link}
    (hpath : Realizes draft.residual intent options path links) {id : String}
    (hid : id ∈ path.links) :
    ∃ link ∈ snapshot.links, link.id = id ∧
      Admitted draft.residual intent options (charge draft.reservations link) := by
  rw [hpath.links_eq] at hid
  obtain ⟨found, hfound, rfl⟩ := mem_map.mp hid
  have hmem := hpath.mem_links found hfound
  rw [h.residual_eq] at hmem
  obtain ⟨link, hlink, rfl⟩ := mem_map.mp hmem
  exact ⟨link, hlink, rfl, hpath.admitted _ hfound⟩

end Accounted

/-! ### One round -/

def Round.demandOn (id : String) (r : Round) : ℤ :=
  if id ∈ r.primary.links then r.intent.demandBPS.toInt else 0

section Round

variable {p : Planner} {clock now : Time} {snapshot : TopologySnapshot} {r : Round}

theorem resolve_searchOptions {options : Options} (hclock : now = 0 → clock = 0)
    (hle : (searchOptions p now).Le options) : options.resolve clock = options := by
  unfold Options.resolve Time.isZero
  split_ifs with hzero
  · have hat : options.at_ = 0 := by simpa using hzero
    have hnow : now = 0 := hle.at_eq.symm.trans hat
    rw [hclock hnow, ← hat]
  · rfl

variable {link : Link}

theorem Accounted.reserved_nonneg {draft : Draft} (h : Accounted snapshot draft)
    (hlink : link ∈ snapshot.links) : 0 ≤ reserved draft.reservations link.id := by
  rcases h.booked link hlink with hzero | ⟨hpos, -⟩
  · exact hzero.symm.le
  · exact hpos.le

variable (hp : p.policies.Sound) (hclock : now = 0 → clock = 0) (hvalid : snapshot.Valid)
  (hr : r.Succeeds p clock snapshot now) (h : Accounted snapshot r.before)
include hp hclock hvalid hr h

/-- **The paths of a round.** Each runs along links of the residual topology that pass the
filters, with at least the exclusions of a search without any. -/
theorem Round.Succeeds.realizes :
    (∃ links, Realizes r.before.residual r.intent (searchOptions p now) r.primary links) ∧
      ∀ path ∈ r.paths, ∃ options links, (searchOptions p now).Le options ∧
        Realizes r.before.residual r.intent options path links := by
  obtain ⟨engine, hengine, hprimary, hpaths⟩ := hr.computed
  have hsound : ∀ path options, (searchOptions p now).Le options →
      engine.compute clock r.before.residual r.intent options = .ok path →
      ∃ links, Realizes r.before.residual r.intent options path links := by
    intro path options hle hcompute
    have hlinks := hp.policy hengine clock _ _ _ _ (h.residual_valid hvalid) hr.intent_valid
      hcompute
    rwa [resolve_searchOptions hclock hle] at hlinks
  refine ⟨hsound _ _ (Options.Le.refl _) hprimary, fun path hpath => ?_⟩
  obtain ⟨options, hle, hcompute⟩ := hpaths path hpath
  obtain ⟨links, hlinks⟩ := hsound path options hle hcompute
  exact ⟨options, links, hle, hlinks⟩

/-- Every hop of a path of the round runs over a link of the input that passes the filters on
the residual topology. -/
theorem Round.Succeeds.hop_link {path : Path} (hpath : path ∈ r.paths) {hop : String × String}
    (hhop : hop ∈ hops path) :
    ∃ options, (searchOptions p now).Le options ∧ ∃ link ∈ snapshot.links, link.id ∈ path.links ∧
      hop = (link.source, link.target) ∧
      Admitted r.before.residual r.intent options (charge r.before.reservations link) := by
  obtain ⟨options, links, hle, hlinks⟩ := (hr.realizes hp hclock hvalid h).2 path hpath
  rw [hlinks.hops] at hhop
  obtain ⟨found, hfound, rfl⟩ := mem_map.mp hhop
  have hmem := hlinks.mem_links found hfound
  rw [h.residual_eq] at hmem
  obtain ⟨link, hlink, rfl⟩ := mem_map.mp hmem
  refine ⟨options, hle, link, hlink, ?_, rfl, hlinks.admitted _ hfound⟩
  rw [hlinks.links_eq]
  exact mem_map.mpr ⟨_, hfound, rfl⟩

theorem Round.Succeeds.reserve_eq :
    (r.after snapshot).residual = charged snapshot (r.after snapshot).reservations ∧
      ∀ id, reserved (r.after snapshot).reservations id = if id ∈ r.primary.links
        then reserved r.before.reservations id + r.intent.demandBPS
        else reserved r.before.reservations id := by
  obtain ⟨⟨links, hlinks⟩, -⟩ := hr.realizes hp hclock hvalid h
  have hids : ∀ id ∈ r.primary.links, id ∈ snapshot.links.map Link.id := by
    intro id hid
    obtain ⟨link, hlink, rfl, -⟩ := h.admitted hlinks hid
    exact mem_map_of_mem hlink
  have hlist : r.before.residual.links = snapshot.links.map (charge r.before.reservations) := by
    rw [h.residual_eq, charged]
  have hreserve : ∃ reservations',
      reserve r.intent r.primary (r.before.residual.links, r.before.reservations) =
        (snapshot.links.map (charge reservations'), reservations') ∧
      ∀ id, reserved reservations' id = if id ∈ r.primary.links
        then reserved r.before.reservations id + r.intent.demandBPS
        else reserved r.before.reservations id := by
    unfold reserve
    rw [hlist]
    by_cases hpos : 0 < r.intent.demandBPS
    · rw [if_pos hpos]
      exact foldl_reserveLink hvalid hids (hlinks.links_nodup (h.residual_valid hvalid))
    · have hzero : r.intent.demandBPS = 0 := le_antisymm (not_lt.mp hpos) hr.intent_valid.capacity.2
      rw [if_neg hpos]
      exact ⟨_, rfl, fun id => by rw [hzero, Int64.add_zero, ite_self]⟩
  obtain ⟨reservations', heq, hbook⟩ := hreserve
  have hresidual : (r.after snapshot).residual =
      { r.before.residual with links := snapshot.links.map (charge reservations') } := by
    simp only [Round.after, Draft.commit, heq]
  have hreservations : (r.after snapshot).reservations = reservations' := by
    simp only [Round.after, Draft.commit, heq]
  rw [hresidual, hreservations, h.residual_eq]
  exact ⟨rfl, hbook⟩

theorem Round.Succeeds.demand_free (hlink : link ∈ snapshot.links) (hid : link.id ∈ r.primary.links) :
    (reserved r.before.reservations link.id).toInt + r.intent.demandBPS.toInt ≤
      link.capacityBPS.toInt := by
  obtain ⟨⟨links, hlinks⟩, -⟩ := hr.realizes hp hclock hvalid h
  obtain ⟨found, hfound, hfid, hadm⟩ := h.admitted hlinks hid
  -- the link of this id on the path is this one, with what is booked taken off
  obtain rfl := inj_on_of_nodup_map hvalid.link_nodup hfound hlink hfid
  have hcap := (le_max_right _ _).trans hadm.capacity
  rw [Int64.le_iff_toInt_le, h.toInt_charge hlink] at hcap
  omega

theorem Round.Succeeds.toInt_reserved_add (hlink : link ∈ snapshot.links)
    (hid : link.id ∈ r.primary.links) :
    (reserved r.before.reservations link.id + r.intent.demandBPS).toInt =
      (reserved r.before.reservations link.id).toInt + r.intent.demandBPS.toInt := by
  have hbound := Int64.toInt_lt link.capacityBPS
  have hfree := hr.demand_free hp hclock hvalid h hlink hid
  exact Int64.toInt_add_of_lt (h.reserved_nonneg hlink) hr.intent_valid.capacity.2 (by omega)

theorem Round.Succeeds.accounted :
    Accounted snapshot (r.after snapshot) ∧ ∀ link ∈ snapshot.links,
      (reserved (r.after snapshot).reservations link.id).toInt =
        (reserved r.before.reservations link.id).toInt + r.demandOn link.id := by
  obtain ⟨hresidual, hreserved⟩ := hr.reserve_eq hp hclock hvalid h
  have hzero : (0 : Int64).toInt = 0 := rfl
  have hdemand : 0 ≤ r.intent.demandBPS := hr.intent_valid.capacity.2
  refine ⟨⟨hresidual, fun link hlink => ?_⟩, fun link hlink => ?_⟩
  · rw [hreserved]
    by_cases hid : link.id ∈ r.primary.links
    · rw [if_pos hid]
      by_cases hnone : r.intent.demandBPS = 0
      · rw [hnone, Int64.add_zero]
        exact h.booked link hlink
      · have hpos := Int64.lt_iff_toInt_lt.mp (lt_of_le_of_ne hdemand (Ne.symm hnone))
        have hold := Int64.le_iff_toInt_le.mp (h.reserved_nonneg hlink)
        rw [Int64.lt_iff_toInt_lt, Int64.le_iff_toInt_le,
          hr.toInt_reserved_add hp hclock hvalid h hlink hid]
        exact .inr ⟨by omega, hr.demand_free hp hclock hvalid h hlink hid⟩
    · rw [if_neg hid]
      exact h.booked link hlink
  · rw [hreserved, Round.demandOn]
    by_cases hid : link.id ∈ r.primary.links
    · rw [if_pos hid, if_pos hid, hr.toInt_reserved_add hp hclock hvalid h hlink hid]
    · rw [if_neg hid, if_neg hid, Int.add_zero]

end Round

/-! ### Whole builds -/

def totalDemand (id : String) (rounds : List Round) : ℤ := (rounds.map (Round.demandOn id)).sum

section Build

variable {p : Planner} {clock now : Time} {snapshot : TopologySnapshot} {draft draft' : Draft}
  {rounds : List Round}

theorem Run.accounted (hp : p.policies.Sound) (hclock : now = 0 → clock = 0)
    (hvalid : snapshot.Valid) (h : Run p clock snapshot now draft rounds draft')
    (hdraft : Accounted snapshot draft) :
    Accounted snapshot draft' ∧ ∀ link ∈ snapshot.links,
      (reserved draft'.reservations link.id).toInt =
        (reserved draft.reservations link.id).toInt + totalDemand link.id rounds := by
  induction rounds generalizing draft with
  | nil =>
    obtain rfl := h
    exact ⟨hdraft, fun link _ => by simp [totalDemand]⟩
  | cons r rounds ih =>
    obtain ⟨rfl, hr, h⟩ := h
    obtain ⟨hafter, hround⟩ := hr.accounted hp hclock hvalid hdraft
    obtain ⟨hend, hsum⟩ := ih h hafter
    refine ⟨hend, fun link hlink => ?_⟩
    rw [hsum link hlink, hround link hlink, totalDemand, totalDemand, map_cons, sum_cons]
    omega

theorem Built.accounted_rounds {digest : Payload → String} {intents : List RouteIntent}
    {plan : RoutePlan}
    (hp : p.policies.Sound)
    (h : Built digest p clock snapshot intents now rounds draft plan) :
    ∀ r ∈ rounds, Accounted snapshot r.before ∧ r.Succeeds p clock snapshot now := by
  have hstep : ∀ r : Round, r.Succeeds p clock snapshot now → Accounted snapshot r.before →
      Accounted snapshot (r.after snapshot) :=
    fun r hr hacc => (hr.accounted hp h.clock_eq h.valid hacc).1
  exact (h.run.invariant hstep (Planner.accounted_start p snapshot now)).1

theorem Run.accounted_start (hp : p.policies.Sound) (hclock : now = 0 → clock = 0)
    (hvalid : snapshot.Valid)
    (h : Run p clock snapshot now (startDraft p snapshot now) rounds draft') :
    Accounted snapshot draft' ∧ ∀ link ∈ snapshot.links,
      (reserved draft'.reservations link.id).toInt = totalDemand link.id rounds := by
  obtain ⟨hacc, hsum⟩ := h.accounted hp hclock hvalid (Planner.accounted_start p snapshot now)
  refine ⟨hacc, fun link hlink => ?_⟩
  have hnone : (reserved (startDraft p snapshot now).reservations link.id).toInt = 0 := rfl
  rw [hsum link hlink, hnone, Int.zero_add]

/-- The residual topology in the middle of a build: the links of the input, with the capacity
that the rounds so far have left. -/
structure Residual (snapshot : TopologySnapshot) (done : List Round) (draft : Draft) : Prop where
  links : draft.residual.links.map Link.id = snapshot.links.map Link.id
  left : ∀ link ∈ snapshot.links, ∃ left ∈ draft.residual.links,
    left = { link with capacityBPS := left.capacityBPS } ∧
      left.capacityBPS.toInt = link.capacityBPS.toInt - totalDemand link.id done ∧
      (0 ≤ link.capacityBPS → 0 ≤ left.capacityBPS)

/-- Every link of every path of the round has the required capacity left. -/
def Round.Fits (snapshot : TopologySnapshot) (done : List Round) (r : Round) : Prop :=
  ∀ path ∈ r.paths, ∀ id ∈ path.links, ∃ link ∈ snapshot.links, link.id = id ∧
    (requiredCapacity r.intent).toInt ≤ link.capacityBPS.toInt - totalDemand id done

variable {done : List Round}

theorem Accounted.residual (h : Accounted snapshot draft)
    (hsum : ∀ link ∈ snapshot.links, (reserved draft.reservations link.id).toInt =
      totalDemand link.id done) :
    Residual snapshot done draft where
  links := by rw [h.residual_eq, charged, charge_map_id]
  left link hlink := by
    have hcharge := h.toInt_charge hlink
    rw [hsum link hlink] at hcharge
    refine ⟨charge draft.reservations link, ?_, rfl, hcharge, fun hcap => ?_⟩
    · rw [h.residual_eq]
      exact mem_map_of_mem hlink
    · rw [Int64.le_iff_toInt_le] at hcap ⊢
      rw [hcharge, ← hsum link hlink]
      have hzero : (0 : Int64).toInt = 0 := rfl
      rcases h.booked link hlink with hz | ⟨-, hle⟩
      · rw [hz]
        omega
      · rw [Int64.le_iff_toInt_le] at hle
        omega

theorem Round.Succeeds.fits (hp : p.policies.Sound) (hclock : now = 0 → clock = 0)
    (hvalid : snapshot.Valid) {r : Round} (hr : r.Succeeds p clock snapshot now)
    (h : Accounted snapshot r.before)
    (hsum : ∀ link ∈ snapshot.links, (reserved r.before.reservations link.id).toInt =
      totalDemand link.id done) :
    r.Fits snapshot done := by
  intro path hpath id hid
  obtain ⟨options, links, -, hlinks⟩ := (hr.realizes hp hclock hvalid h).2 path hpath
  obtain ⟨link, hlink, rfl, hadm⟩ := h.admitted hlinks hid
  refine ⟨link, hlink, rfl, ?_⟩
  rw [← hsum link hlink, ← h.toInt_charge hlink]
  exact Int64.le_iff_toInt_le.mp hadm.capacity

/-- **Bandwidth admission.** A successful build is a run of rounds such that, on every link,
what is reported as reserved is the demand of the rounds whose primary path uses the link,
and at most the capacity of the link unless that is negative. Before every round and at the
end the residual topology is the input with the demand of the rounds so far taken off, and
every path of a round has the required capacity left on all of its links. -/
theorem build_admits {digest : Payload → String} {intents : List RouteIntent} {plan : RoutePlan}
    (hp : p.policies.Sound) (h : build digest p clock snapshot intents now = .ok plan) :
    ∃ rounds draft,
      Built digest p clock snapshot intents (buildTime clock now) rounds draft plan ∧
      Records plan rounds ∧
      (∀ link ∈ snapshot.links,
        (reserved plan.metadata.capacityReservationsBPS link.id).toInt =
          totalDemand link.id rounds ∧
        (0 ≤ link.capacityBPS → totalDemand link.id rounds ≤ link.capacityBPS.toInt)) ∧
      (∀ done r rest, rounds = done ++ r :: rest →
        Residual snapshot done r.before ∧ r.Fits snapshot done) ∧
      Residual snapshot rounds draft := by
  obtain ⟨rounds, draft, hbuilt⟩ := build_run h
  have hvalid := hbuilt.valid
  have hclock := hbuilt.clock_eq
  obtain ⟨hacc, hsum⟩ := hbuilt.run.accounted_start hp hclock hvalid
  have hend := hacc.residual hsum
  refine ⟨rounds, draft, hbuilt, hbuilt.records, fun link hlink => ⟨?_, fun hcap => ?_⟩, ?_, hend⟩
  · rw [hbuilt.plan_eq]
    exact hsum link hlink
  · obtain ⟨left, -, -, hleft, hnonneg⟩ := hend.left link hlink
    have hzero : (0 : Int64).toInt = 0 := rfl
    have := Int64.le_iff_toInt_le.mp (hnonneg hcap)
    omega
  · rintro done r rest rfl
    obtain ⟨middle, hdone, rfl, hr, -⟩ := run_append.mp hbuilt.run
    obtain ⟨hacc', hsum'⟩ := hdone.accounted_start hp hclock hvalid
    exact ⟨hacc'.residual hsum', hr.fits hp hclock hvalid hacc' hsum'⟩

end Build

/-! ### A topology with a link below zero -/

def idleLink : Link :=
  { id := "ba", source := "b", target := "a", adminUp := true, operationalUp := true
    latencyUS := 5, capacityBPS := -1 }

def idleTopology : TopologySnapshot where
  version := 1
  nodes := [{ id := "a", loopback := "10.0.0.1", enabled := true },
    { id := "b", loopback := "10.0.0.2", enabled := true }]
  links :=
    [{ id := "ab", source := "a", target := "b", adminUp := true, operationalUp := true
       latencyUS := 5, capacityBPS := 100 },
     idleLink]

def pairIntent : RouteIntent :=
  { id := "i", source := "a", destination := "b", destinationPrefix := "10.1.0.0/16"
    demandBPS := 40 }

def idleBuild : Except Failure RoutePlan :=
  build (fun _ => "0") (new {}) 0 idleTopology [pairIntent] 1

theorem new_sound {config : Config} (h : config.policies = none) : (new config).policies.Sound := by
  unfold new
  rw [h]
  exact Registry.new_sound nofun

theorem build_admits_pair : ∃ plan rounds draft, idleBuild = .ok plan ∧
    Built (fun _ => "0") (new {}) 0 idleTopology [pairIntent] 1 rounds draft plan ∧
    Records plan rounds ∧ totalDemand "ab" rounds = 40 := by
  obtain ⟨plan, hplan⟩ : ∃ plan, idleBuild = .ok plan := exists_ok_of_isSome (by decide +kernel)
  obtain ⟨rounds, draft, hbuilt, hrecords, hlinks, -⟩ := build_admits (new_sound rfl) hplan
  refine ⟨plan, rounds, draft, hplan, hbuilt, hrecords, ?_⟩
  have hreported : idleBuild.toOption.map (fun plan =>
      (reserved plan.metadata.capacityReservationsBPS "ab").toInt) = some 40 := by decide +kernel
  rw [hplan] at hreported
  rw [← (hlinks _ mem_cons_self).1]
  exact Option.some.inj hreported

/-- A link that no path uses keeps its negative capacity: nothing is booked on it, which is
more than its capacity, and its residual capacity is negative at the end. -/
theorem idle_link_stays_negative : ∃ plan rounds draft, idleBuild = .ok plan ∧
    Built (fun _ => "0") (new {}) 0 idleTopology [pairIntent] 1 rounds draft plan ∧
    ∃ link ∈ idleTopology.links, link.capacityBPS.toInt < totalDemand link.id rounds ∧
      ∃ left ∈ draft.residual.links, left.id = link.id ∧ left.capacityBPS < 0 := by
  obtain ⟨plan, hplan⟩ : ∃ plan, idleBuild = .ok plan := exists_ok_of_isSome (by decide +kernel)
  obtain ⟨rounds, draft, hbuilt⟩ := build_run hplan
  obtain ⟨hacc, hsum⟩ := hbuilt.run.accounted_start (new_sound rfl) hbuilt.clock_eq hbuilt.valid
  have hlink : idleLink ∈ idleTopology.links := mem_cons_of_mem _ mem_cons_self
  have hreported : idleBuild.toOption.map (fun plan =>
      (reserved plan.metadata.capacityReservationsBPS "ba").toInt) = some 0 := by decide +kernel
  rw [hplan, hbuilt.plan_eq] at hreported
  have hnone : totalDemand "ba" rounds = 0 := (hsum _ hlink).symm.trans (Option.some.inj hreported)
  obtain ⟨left, hmem, hleft, hcap, -⟩ := (hacc.residual hsum).left _ hlink
  refine ⟨plan, rounds, draft, hplan, hbuilt, idleLink, hlink, ?_, left, hmem, ?_, ?_⟩
  · exact hnone ▸ (by decide : (-1 : Int64).toInt < 0)
  · rw [hleft]
  · rw [Int64.lt_iff_toInt_lt, hcap]
    exact hnone ▸ (by decide : (-1 : Int64).toInt - 0 < (0 : Int64).toInt)

end StarFabric.Planner

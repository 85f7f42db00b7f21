import StarFabric.Planner.Redundancy
import StarFabric.Validation

/-!
# The planner and the validator

A plan that `build` returns passes every check of the validator until it expires, with one
exception: the validator takes a route with the same device, prefix, metric and next hop as an
earlier one for a duplicate, and the planner does not merge the routes of two intents.
-/

namespace StarFabric.Planner

open Go Policy ExceptFold List Option

section Agreement

variable {p : Planner} {clock now t : Time} {snapshot : TopologySnapshot} {r : Round}

theorem Accounted.usable {draft : Draft} {link : Link} {maxTelemetryAge : Duration}
    (h : Accounted snapshot draft) (hlink : link ∈ snapshot.links)
    (husable : (charge draft.reservations link).Usable now maxTelemetryAge) {expiresAt : Time}
    (hends : EndsBy expiresAt link) (ht : t < expiresAt) : link.Usable t 0 where
  up := husable.up
  capacity := h.capacity_pos hlink husable.capacity
  latency := husable.latency
  acquisition := husable.acquisition
  validUntil := or_iff_not_imp_left.mpr fun hne => ht.trans_le (hends.1 hne)
  availabilityEnd := or_iff_not_imp_left.mpr fun hne => ht.trans_le (hends.2 hne)
  telemetry := fun h => absurd h (lt_irrefl _)

theorem Round.Succeeds.checkRoute (hp : p.policies.Sound) (hclock : now = 0 → clock = 0)
    (hvalid : snapshot.Valid) (hr : r.Succeeds p clock snapshot now)
    (hacc : Accounted snapshot r.before) {expiresAt : Time}
    (hends : ∀ path ∈ r.paths, ∀ id ∈ path.links, ∀ link, snapshot.linkMap.lookup id = some link →
      EndsBy expiresAt link) (ht : t < expiresAt) {route : RouteOperation}
    (hroute : route ∈ r.routes) :
    Validation.checkRoute snapshot.nodeMap (Validation.usableEdges snapshot t) route = .ok () := by
  obtain ⟨i, path, hi, hop, hhop, hok⟩ := (intentRoutes_spec hr.routes_ok).1 route hroute
  have hpath := mem_of_getElem? hi
  obtain ⟨options, -, link, hlink, hid, rfl, hadm⟩ := hr.hop_link hp hclock hvalid hacc hpath hhop
  obtain ⟨next, address, hnext, haddress, rfl⟩ := hopRoute_eq_ok hok
  have hnodes : r.before.residual.nodeMap = snapshot.nodeMap := by rw [hacc.residual_eq]; rfl
  obtain ⟨device, hdevice, -, -⟩ := enabled_iff.mp hadm.source
  obtain ⟨target, htarget, henabled, -⟩ := enabled_iff.mp hadm.target
  rw [hnodes] at hdevice htarget
  have hsame : target = next := Option.some.inj (htarget.symm.trans hnext)
  subst hsame
  have hkey : edgeKey link.source link.target ∈ Validation.usableEdges snapshot t := by
    have hlookup := lookup_mapBy hvalid.link_nodup hlink
    have husable := hacc.usable hlink hadm.usable (hends path hpath link.id hid link hlookup) ht
    refine mem_map.mpr ⟨link, mem_filter.mpr ⟨hlink, ?_⟩, rfl⟩
    exact Link.usable_iff.mpr husable
  have htid : target.id = link.target := (mem_of_lookup_mapBy hnext).2
  obtain ⟨destination, -, -, hintent⟩ := hr.intent_eq
  obtain ⟨parsed, hparsed⟩ := hr.parses
  have hparses : parsePrefix r.intent.destinationPrefix = .ok parsed := by rw [hintent, hparsed]
  have hlookup : snapshot.nodeMap.lookup link.source = some device := hdevice
  rw [hlookup, getD_some] at haddress
  unfold Validation.checkRoute
  rw [hlookup, htid, hnext]
  dsimp only
  rw [if_neg (by simp [henabled]), haddress]
  dsimp only
  rw [if_neg (not_not.mpr rfl), if_neg (not_not.mpr hkey), hparses]

/-- **Agreement.** Until it expires, a plan that `build` returns is accepted by the validator
for the same topology exactly when no two of its routes have the same key. -/
theorem validation_accepts_iff {digest : Payload → String} {intents : List RouteIntent}
    {plan : RoutePlan} (hp : p.policies.Sound)
    (h : build digest p clock snapshot intents now = .ok plan) (ht : t < plan.expiresAt) :
    Validation.plan plan snapshot t = .ok () ↔ (plan.routes.map Validation.routeKey).Nodup := by
  rw [Validation.plan_eq_ok_iff]
  refine ⟨fun h => h.keys, fun hkeys => ?_⟩
  obtain ⟨rounds, draft, hbuilt⟩ := build_run h
  obtain ⟨-, -, hversion⟩ := hbuilt.run.plan
  obtain ⟨-, hends⟩ := hbuilt.run.expiresAt
  have hexpires : plan.expiresAt ≤ draft.plan.expiresAt := by
    rw [hbuilt.plan_eq]
    exact lower_le _ _
  refine ⟨?_, ?_, ht, fun route hroute => ?_, hkeys, fun id paths hpaths => ?_⟩
  · rw [hbuilt.plan_eq, planID]
    exact fun hid => by simpa using congrArg String.length hid
  · rw [hbuilt.plan_eq]
    exact hversion
  · obtain ⟨r, hmem, hroute⟩ := (hbuilt.records.routes route).mp hroute
    obtain ⟨hacc, hr⟩ := hbuilt.accounted_rounds hp r hmem
    exact hr.checkRoute hp hbuilt.clock_eq hbuilt.valid hacc (hends r hmem)
      (ht.trans_le hexpires) hroute
  · obtain ⟨r, hmem, -, rfl⟩ := hbuilt.records.mem_paths id paths hpaths
    obtain ⟨hacc, hr⟩ := hbuilt.accounted_rounds hp r hmem
    refine ⟨cons_ne_nil _ _, fun path hpath => ?_⟩
    obtain ⟨options, links, -, hlinks⟩ :=
      (hr.realizes hp hbuilt.clock_eq hbuilt.valid hacc).2 path hpath
    exact hlinks.simple

end Agreement

theorem validation_accepts_diamond : ∃ plan, diamondBuild = .ok plan ∧
    Validation.plan plan diamond 1 = .ok () := by
  obtain ⟨plan, hplan⟩ : ∃ plan, diamondBuild = .ok plan := exists_ok_of_isSome (by decide +kernel)
  have hkeys : diamondBuild.toOption.all (fun plan =>
      decide (1 < plan.expiresAt) && decide (plan.routes.map Validation.routeKey).Nodup) = true := by
    decide +kernel
  rw [hplan] at hkeys
  simp only [Except.toOption, all_some, Bool.and_eq_true, decide_eq_true_eq] at hkeys
  exact ⟨plan, hplan, (validation_accepts_iff (new_sound rfl) hplan hkeys.1).mpr hkeys.2⟩

def sharedPrefix : List RouteIntent := [diamondIntent, { diamondIntent with id := "j" }]

/-- The planner returns a plan for two intents with one prefix and one path, and the validator
refuses it. -/
theorem shared_prefix_refused : diamond.Valid ∧ (∀ intent ∈ sharedPrefix, intent.Valid) ∧
    (sharedPrefix.map RouteIntent.id).Nodup ∧
    ∃ plan, build (fun _ => "0") (new {}) 0 diamond sharedPrefix 1 = .ok plan ∧
      1 < plan.expiresAt ∧ Validation.plan plan diamond 1 =
        .error "duplicate route on \"a\" for \"10.1.0.0/16\"" := by
  refine ⟨TopologySnapshot.validate_eq_ok_iff.mp (by decide +kernel), ?_, by decide, ?_⟩
  · intro intent hintent
    rw [← RouteIntent.validate_eq_ok_iff]
    revert intent
    decide +kernel
  obtain ⟨plan, hplan⟩ :
      ∃ plan, build (fun _ => "0") (new {}) 0 diamond sharedPrefix 1 = .ok plan :=
    exists_ok_of_isSome (by decide +kernel)
  have hcheck : (build (fun _ => "0") (new {}) 0 diamond sharedPrefix 1).toOption.all (fun plan =>
      decide (1 < plan.expiresAt) && decide (Validation.plan plan diamond 1 =
        .error "duplicate route on \"a\" for \"10.1.0.0/16\"")) = true := by
    decide +kernel
  rw [hplan] at hcheck
  simp only [Except.toOption, all_some, Bool.and_eq_true, decide_eq_true_eq] at hcheck
  exact ⟨plan, hplan, hcheck⟩

end StarFabric.Planner

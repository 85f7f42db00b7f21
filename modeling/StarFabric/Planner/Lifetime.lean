import StarFabric.Planner.Agreement

/-!
# The lifetime of a plan

A plan expires no later than the snapshot it was made for and the links of its paths. Until then
every link of its paths is usable, as far as its state and its ends are concerned. The expiry does
not take the age of the telemetry into account (`telemetry_outlived`).
-/

namespace StarFabric.Planner

open Go Policy ExceptFold

def Fresh (t : Time) (maxTelemetryAge : Duration) (link : Link) : Prop :=
  0 < maxTelemetryAge → link.telemetryAt ≠ 0 → t.sub link.telemetryAt ≤ maxTelemetryAge

theorem usable_iff_fresh {link : Link} {t : Time} (h : link.Usable t 0)
    (maxTelemetryAge : Duration) :
    link.Usable t maxTelemetryAge ↔ Fresh t maxTelemetryAge link :=
  ⟨fun husable => husable.telemetry, fun hfresh => { h with telemetry := hfresh }⟩

section Lifetime

variable {p : Planner} {clock now t : Time} {snapshot : TopologySnapshot}
  {digest : Payload → String} {intents : List RouteIntent} {plan : RoutePlan}
  {rounds : List Round} {draft : Draft}

theorem Built.expiresAt_le (h : Built digest p clock snapshot intents now rounds draft plan) :
    plan.expiresAt ≤ draft.plan.expiresAt ∧
      (snapshot.validUntil ≠ 0 → plan.expiresAt ≤ snapshot.validUntil) := by
  rw [h.plan_eq]
  exact ⟨lower_le _ _, lower_le_end⟩

theorem Built.usable (hp : p.policies.Sound)
    (h : Built digest p clock snapshot intents now rounds draft plan) {r : Round}
    (hr : r ∈ rounds) {path : Path} (hpath : path ∈ r.paths) {id : String}
    (hid : id ∈ path.links) (ht : t < plan.expiresAt) :
    ∃ link ∈ snapshot.links, link.id = id ∧ link.Usable t 0 := by
  obtain ⟨hacc, hsucceeds⟩ := h.accounted_rounds hp r hr
  obtain ⟨options, links, -, hlinks⟩ := (hsucceeds.realizes hp h.clock_eq h.valid hacc).2 path hpath
  obtain ⟨link, hlink, rfl, hadmitted⟩ := hacc.admitted hlinks hid
  have hends : EndsBy draft.plan.expiresAt link :=
    h.run.expiresAt.2 r hr path hpath link.id hid link (lookup_mapBy h.valid.link_nodup hlink)
  exact ⟨link, hlink, rfl, hacc.usable hlink hadmitted.usable hends (ht.trans_le h.expiresAt_le.1)⟩

/-- **The lifetime of a plan.** It begins when the plan is built and lasts at most as long as
configured. At every instant of it the snapshot has not expired, and every link of every path is
usable, but for the age of its telemetry. -/
theorem build_lifetime (hp : p.policies.Sound)
    (h : build digest p clock snapshot intents now = .ok plan) :
    buildTime clock now < plan.expiresAt ∧ plan.expiresAt ≤ buildTime clock now + p.planTTL ∧
      ∀ t, t < plan.expiresAt →
        (snapshot.validUntil ≠ 0 → t < snapshot.validUntil) ∧
        ∀ id paths, plan.paths.lookup id = some paths → ∀ path ∈ paths, ∀ linkID ∈ path.links,
          ∃ link ∈ snapshot.links, link.id = linkID ∧ link.Usable t 0 ∧
            (link.Usable t p.maxTelemetryAge ↔ Fresh t p.maxTelemetryAge link) := by
  obtain ⟨rounds, draft, hbuilt⟩ := build_run h
  obtain ⟨hrun, hsnapshot⟩ := hbuilt.expiresAt_le
  refine ⟨hbuilt.alive, hrun.trans hbuilt.run.expiresAt.1, fun t ht => ⟨fun hne => ?_, ?_⟩⟩
  · exact ht.trans_le (hsnapshot hne)
  · intro id paths hpaths path hpath linkID hlinkID
    obtain ⟨r, hmem, -, rfl⟩ := hbuilt.records.mem_paths id paths hpaths
    obtain ⟨link, hlink, hid, husable⟩ := hbuilt.usable hp hmem hpath hlinkID ht
    exact ⟨link, hlink, hid, husable, usable_iff_fresh husable p.maxTelemetryAge⟩

end Lifetime

theorem build_lifetime_diamond : ∃ plan, diamondBuild = .ok plan ∧ 1 < plan.expiresAt ∧
    plan.expiresAt ≤ 1 + 30 * second := by
  obtain ⟨plan, hplan⟩ : ∃ plan, diamondBuild = .ok plan := exists_ok_of_isSome (by decide +kernel)
  obtain ⟨halive, hle, -⟩ := build_lifetime (new_sound rfl) hplan
  exact ⟨plan, hplan, halive, hle⟩

def measured : TopologySnapshot where
  version := 1
  nodes := [{ id := "s", loopback := "10.0.0.1", enabled := true },
    { id := "d", loopback := "10.0.0.2", enabled := true }]
  links := [{ id := "sd", source := "s", target := "d", adminUp := true, operationalUp := true
              latencyUS := 5, capacityBPS := 100, telemetryAt := 1 }]

def measuredBuild : Except Failure RoutePlan :=
  build (fun _ => "0") (new { maxTelemetryAge := 10 * second }) 0 measured
    [{ id := "i", source := "s", destination := "d", destinationPrefix := "10.1.0.0/16" }] 1

/-- **Telemetry that grows too old.** The plan uses the link and lives for thirty seconds. After
twenty of them the telemetry of the link is older than the ten seconds that are allowed. -/
theorem telemetry_outlived :
    measured.Valid ∧ ∃ plan, measuredBuild = .ok plan ∧
      plan.expiresAt = 1 + 30 * second ∧
      (plan.paths.lookup "i").map (fun paths => paths.map Path.links) = some [["sd"]] ∧
      ∀ link ∈ measured.links, ¬ link.Usable (1 + 20 * second) (10 * second) := by
  refine ⟨TopologySnapshot.validate_eq_ok_iff.mp (by decide +kernel), ?_⟩
  obtain ⟨plan, hplan⟩ : ∃ plan, measuredBuild = .ok plan := exists_ok_of_isSome (by decide +kernel)
  have hcheck : measuredBuild.toOption.map (fun plan => (plan.expiresAt,
      (plan.paths.lookup "i").map fun paths => paths.map Path.links)) =
        some (1 + 30 * second, some [["sd"]]) := by decide +kernel
  rw [hplan] at hcheck
  obtain ⟨hexpires, hlinks⟩ := Prod.mk.inj (Option.some.inj hcheck)
  refine ⟨plan, hplan, hexpires, hlinks, fun link hlink husable => ?_⟩
  have hstale : ∀ link ∈ measured.links,
      link.usable (1 + 20 * second) (10 * second) = false := by decide +kernel
  rw [← Link.usable_iff, hstale link hlink] at husable
  exact Bool.false_ne_true husable

end StarFabric.Planner

import StarFabric.Planner.Build

/-!
# What a round computes

One statement for each part of a round: the destination chosen and the primary path
(`selectDestination_spec`), the backups with the exclusions each was computed under
(`backups_spec`), the routes (`intentRoutes_spec`) and the expiry time (`foldl_lowerLink`).
Then what a whole run leaves in the plan.
-/

namespace StarFabric.Planner

open Go Policy ExceptFold List

section Select

variable {p : Planner} {clock now : Time} {snapshot : TopologySnapshot}

def searchOptions (p : Planner) (now : Time) : Options :=
  { at_ := now, maxTelemetryAge := p.maxTelemetryAge }

def Selection.Computed (p : Planner) (clock : Time) (snapshot : TopologySnapshot)
    (intent : RouteIntent) (now : Time) (s : Selection) : Prop :=
  s.selectedDestination ≠ "" → s.selectedDestination ∈ candidates intent ∧
    p.policies.compute clock intent.policy snapshot
      { intent with destination := s.selectedDestination } (searchOptions p now) = .ok s.selected

theorem Selection.Computed.consider {intent : RouteIntent} {s : Selection} {destination : String}
    (hs : s.Computed p clock snapshot intent now) (hmem : destination ∈ candidates intent) :
    (consider p clock snapshot intent now s destination).Computed p clock snapshot intent now := by
  unfold Planner.consider
  cases hcompute : p.policies.compute clock intent.policy snapshot
      { intent with destination := destination }
      { at_ := now, maxTelemetryAge := p.maxTelemetryAge } with
  | error e => exact hs
  | ok path =>
    dsimp only
    split_ifs
    · exact fun _ => ⟨hmem, hcompute⟩
    · exact hs

/-- **The destination.** The chosen one is a candidate, and the path is what the policy of the
intent computes for it. -/
theorem selectDestination_spec {intent chosen : RouteIntent} {primary : Path}
    (h : selectDestination p clock snapshot intent now = .ok (chosen, primary)) :
    ∃ destination ∈ candidates intent, destination ≠ "" ∧
      chosen = { intent with destination := destination } ∧
      p.policies.compute clock intent.policy snapshot chosen (searchOptions p now) =
        .ok primary := by
  have hloop : ∀ (cs : List String) (s : Selection), s.Computed p clock snapshot intent now →
      (∀ c ∈ cs, c ∈ candidates intent) →
      (cs.foldl (consider p clock snapshot intent now) s).Computed p clock snapshot intent now := by
    intro cs
    induction cs with
    | nil => exact fun s hs _ => hs
    | cons c cs ih =>
      intro s hs hcs
      exact ih _ (hs.consider (hcs c mem_cons_self)) fun x hx => hcs x (mem_cons_of_mem c hx)
  unfold selectDestination at h
  dsimp only at h
  split_ifs at h with hnone hempty
  cases h
  obtain ⟨hmem, hcompute⟩ := hloop _ {} (fun h => absurd rfl h) (fun _ hc => hc) hempty
  exact ⟨_, hmem, hempty, rfl, hcompute⟩

end Select

section Backups

variable {p : Planner} {engine : PathPolicy} {clock now : Time} {snapshot : TopologySnapshot}
  {intent : RouteIntent}

variable {options : Options}

theorem disjointWithPolicy_eq_ok {nodeDisjoint : Bool} {previous path : Path} {options' : Options}
    (h : disjointWithPolicy engine clock snapshot intent previous nodeDisjoint options =
      .ok (path, options')) :
    exclude snapshot previous nodeDisjoint options = .ok options' ∧
      engine.compute clock snapshot intent options' = .ok path := by
  unfold disjointWithPolicy at h
  cases hex : exclude snapshot previous nodeDisjoint options with
  | error e => rw [hex] at h; cases h
  | ok opts =>
    rw [hex] at h
    dsimp only at h
    cases hcompute : engine.compute clock snapshot intent opts with
    | error e => rw [hcompute] at h; cases h
    | ok found =>
      rw [hcompute] at h
      cases h
      exact ⟨rfl, hcompute⟩

def AvoidedBy (p : Planner) (engine : PathPolicy) (clock : Time) (snapshot : TopologySnapshot)
    (intent : RouteIntent) (options : Options) (other path : Path) : Prop :=
  ∃ options', options.Le options' ∧ Excludes snapshot p.nodeDisjoint other options' ∧
    engine.compute clock snapshot intent options' = .ok path

theorem AvoidedBy.of_le {options' : Options} {other path : Path} (hle : options.Le options')
    (h : AvoidedBy p engine clock snapshot intent options' other path) :
    AvoidedBy p engine clock snapshot intent options other path := by
  obtain ⟨options'', hle', hex, hcompute⟩ := h
  exact ⟨options'', hle.trans hle', hex, hcompute⟩

variable {out : List Path}

/-- **The backups.** There are as many as asked for, and every one was computed under
exclusions that cover the paths before it. -/
theorem backups_spec {count index : ℕ} {previous : Path}
    (h : backups p engine clock snapshot intent count index previous options = .ok out) :
    out.length = count ∧
      (previous :: out).Pairwise (AvoidedBy p engine clock snapshot intent options) := by
  induction count generalizing index previous options out with
  | zero =>
    cases h
    exact ⟨rfl, pairwise_singleton ..⟩
  | succ count ih =>
    obtain ⟨⟨backup, options'⟩, hdisjoint, h⟩ := bind_eq_ok.mp h
    obtain ⟨rest, hrest, h⟩ := bind_eq_ok.mp h
    cases h
    obtain ⟨hex, hcompute⟩ := disjointWithPolicy_eq_ok (mapError_eq_ok.mp hdisjoint)
    obtain ⟨hcovers, hle⟩ := exclude_spec hex
    obtain ⟨hlen, hpairs⟩ := ih hrest
    refine ⟨by rw [length_cons, hlen], pairwise_cons.mpr ⟨fun path hpath => ?_, ?_⟩⟩
    · -- what covers the previous path still covers it later
      rcases mem_cons.mp hpath with rfl | hpath
      · exact ⟨options', hle, hcovers, hcompute⟩
      · obtain ⟨options'', hle', -, hcompute'⟩ := (pairwise_cons.mp hpairs).1 path hpath
        exact ⟨options'', hle.trans hle', hcovers.mono hle', hcompute'⟩
    · exact hpairs.imp (AvoidedBy.of_le hle)

theorem computeBackups_spec {primary : Path} (hvalid : 0 ≤ intent.redundancy)
    (h : computeBackups p clock snapshot intent primary now = .ok out) :
    (out.length : ℤ) = intent.redundancy ∧ (out = [] ∨ ∃ engine,
      p.policies.policy intent.policy = some engine ∧ (primary :: out).Pairwise
        (AvoidedBy p engine clock snapshot intent (searchOptions p now))) := by
  unfold computeBackups at h
  split_ifs at h with hpos
  · cases hengine : p.policies.policy intent.policy with
    | none => rw [hengine] at h; cases h
    | some engine =>
      rw [hengine] at h
      obtain ⟨hlen, hpairs⟩ := backups_spec h
      exact ⟨by omega, .inr ⟨engine, rfl, hpairs⟩⟩
  · cases h
    exact ⟨by simp; omega, .inl rfl⟩

end Backups

section Routes

variable {nodes : Map Node} {intent : RouteIntent} {primary : Path}

theorem hopRoute_eq_ok {role : String × ℤ} {hop : String × String} {r : RouteOperation}
    (h : hopRoute nodes intent role hop = .ok r) :
    ∃ nextHop address, nodes.lookup hop.2 = some nextHop ∧
      ((nodes.lookup hop.1).getD default).nextHopAddress nextHop = .ok address ∧
      r = { device := hop.1, routePrefix := intent.destinationPrefix, nextHop := address
            nextHopNode := nextHop.id, metric := role.2, intentID := intent.id
            pathRole := role.1 } := by
  unfold hopRoute at h
  cases hnext : nodes.lookup hop.2 with
  | none => rw [hnext] at h; cases h
  | some nextHop =>
    rw [hnext] at h
    dsimp only at h
    cases haddress : ((nodes.lookup hop.1).getD default).nextHopAddress nextHop with
    | error e => rw [haddress] at h; cases h
    | ok address =>
      rw [haddress] at h
      exact ⟨nextHop, address, rfl, haddress, (Except.ok.inj h).symm⟩

theorem intentRoutes_spec {paths : List Path} {routes : List RouteOperation}
    (h : intentRoutes nodes intent primary paths = .ok routes) :
    (∀ r ∈ routes, ∃ i path, paths[i]? = some path ∧ ∃ hop ∈ hops path,
      hopRoute nodes intent (roleMetric intent primary i path) hop = .ok r) ∧
    ∀ i path, paths[i]? = some path → ∀ hop ∈ hops path, ∃ r ∈ routes,
      hopRoute nodes intent (roleMetric intent primary i path) hop = .ok r := by
  obtain ⟨lists, hlists, h⟩ := bind_eq_ok.mp h
  cases h
  obtain ⟨hfrom, hto⟩ := mapM_ok hlists
  constructor
  · intro r hr
    obtain ⟨list, hlist, hr⟩ := mem_flatten.mp hr
    obtain ⟨⟨path, i⟩, hmem, hpath⟩ := hfrom list hlist
    obtain ⟨hop, hhop, hroute⟩ := (mapM_ok hpath).1 r hr
    exact ⟨i, path, mk_mem_zipIdx_iff_getElem?.mp hmem, hop, hhop, hroute⟩
  · intro i path hpath hop hhop
    obtain ⟨list, hlist, hok⟩ := hto (path, i) (mk_mem_zipIdx_iff_getElem?.mpr hpath)
    obtain ⟨r, hr, hroute⟩ := (mapM_ok hok).2 hop hhop
    exact ⟨r, mem_flatten.mpr ⟨list, hlist, hr⟩, hroute⟩

end Routes

section Expiry

theorem lower_le (expiresAt end_ : Time) : lower expiresAt end_ ≤ expiresAt := by
  unfold lower
  split_ifs with h
  · simp only [Bool.and_eq_true, decide_eq_true_eq] at h
    exact h.2.le
  · exact le_rfl

theorem lower_le_end {expiresAt end_ : Time} (h : end_ ≠ 0) : lower expiresAt end_ ≤ end_ := by
  unfold lower
  split_ifs with hlt
  · exact le_rfl
  · simpa [Time.isZero, h] using hlt

def EndsBy (t : Time) (link : Link) : Prop :=
  (link.validUntil ≠ 0 → t ≤ link.validUntil) ∧ (link.availabilityEnd ≠ 0 → t ≤ link.availabilityEnd)

variable {link : Link}

theorem EndsBy.mono {t t' : Time} (h : EndsBy t link) (hle : t' ≤ t) :
    EndsBy t' link := ⟨fun hne => hle.trans (h.1 hne), fun hne => hle.trans (h.2 hne)⟩

theorem lowerLink_le (links : Map Link) (expiresAt : Time) (linkID : String) :
    lowerLink links expiresAt linkID ≤ expiresAt :=
  (lower_le _ _).trans (lower_le _ _)

theorem endsBy_lowerLink {links : Map Link} {expiresAt : Time} {linkID : String}
    (h : links.lookup linkID = some link) : EndsBy (lowerLink links expiresAt linkID) link := by
  unfold lowerLink
  rw [h]
  exact ⟨fun hne => (lower_le _ _).trans (lower_le_end hne), lower_le_end⟩

theorem foldl_lowerLink (links : Map Link) (ids : List String) (expiresAt : Time) :
    ids.foldl (lowerLink links) expiresAt ≤ expiresAt ∧
      ∀ id ∈ ids, ∀ link, links.lookup id = some link →
        EndsBy (ids.foldl (lowerLink links) expiresAt) link := by
  induction ids generalizing expiresAt with
  | nil => exact ⟨le_rfl, nofun⟩
  | cons id ids ih =>
    obtain ⟨hle, hends⟩ := ih (lowerLink links expiresAt id)
    refine ⟨hle.trans (lowerLink_le ..), fun id' hid' link hlink => ?_⟩
    rcases mem_cons.mp hid' with rfl | hid'
    · exact (endsBy_lowerLink hlink).mono hle
    · exact hends id' hid' link hlink

end Expiry

/-! ### What a run leaves in the plan -/

section

variable {p : Planner} {clock now : Time} {snapshot : TopologySnapshot} {draft draft' : Draft}
  {rounds : List Round}

variable {r : Round}

theorem Round.Succeeds.intent_eq (hr : r.Succeeds p clock snapshot now) :
    ∃ destination ∈ candidates r.input, destination ≠ "" ∧
      r.intent = { r.input with destination := destination } := by
  obtain ⟨destination, hmem, hne, heq, -⟩ := selectDestination_spec hr.selects
  exact ⟨destination, hmem, hne, heq⟩

theorem Round.Succeeds.intent_valid (hr : r.Succeeds p clock snapshot now) : r.intent.Valid := by
  obtain ⟨destination, -, hne, heq⟩ := hr.intent_eq
  rw [heq]
  exact ⟨hr.valid.text, .inl hne, hr.valid.redundancy, hr.valid.capacity⟩

theorem Round.Succeeds.computed (hr : r.Succeeds p clock snapshot now) :
    ∃ engine, p.policies.policy r.intent.policy = some engine ∧
      engine.compute clock r.before.residual r.intent (searchOptions p now) = .ok r.primary ∧
      ∀ path ∈ r.paths, ∃ options, (searchOptions p now).Le options ∧
        engine.compute clock r.before.residual r.intent options = .ok path := by
  obtain ⟨destination, -, -, heq, hcompute⟩ := selectDestination_spec hr.selects
  have hpolicy : r.intent.policy = r.input.policy := by rw [heq]
  unfold Registry.compute at hcompute
  rw [← hpolicy] at hcompute
  cases hengine : p.policies.policy r.intent.policy with
  | none => rw [hengine] at hcompute; cases hcompute
  | some engine =>
    rw [hengine] at hcompute
    refine ⟨engine, rfl, hcompute, forall_mem_cons.mpr ⟨?_, fun path hpath => ?_⟩⟩
    · exact ⟨_, Options.Le.refl _, hcompute⟩
    · obtain ⟨-, hnil | ⟨engine', hengine', hpairs⟩⟩ :=
        computeBackups_spec hr.intent_valid.redundancy.1 hr.backs
      · exact absurd (hnil ▸ hpath) not_mem_nil
      · obtain rfl : engine = engine' := Option.some.inj (hengine.symm.trans hengine')
        obtain ⟨options, hle, -, hbackup⟩ := (pairwise_cons.mp hpairs).1 path hpath
        exact ⟨options, hle, hbackup⟩

section

variable (h : Run p clock snapshot now draft rounds draft')
include h

theorem Run.plan :
    draft'.plan.intents = draft.plan.intents ++ rounds.map Round.intent ∧
      draft'.plan.routes = draft.plan.routes ++ rounds.flatMap Round.routes ∧
      draft'.plan.topologyVersion = draft.plan.topologyVersion := by
  induction rounds generalizing draft with
  | nil =>
    obtain rfl := h
    simp
  | cons r rounds ih =>
    obtain ⟨rfl, -, h⟩ := h
    obtain ⟨hintents, hroutes, hversion⟩ := ih h
    rw [hintents, hroutes, hversion]
    simp [Round.after, Draft.commit]

theorem Run.expiresAt :
    draft'.plan.expiresAt ≤ draft.plan.expiresAt ∧
      ∀ r ∈ rounds, ∀ path ∈ r.paths, ∀ id ∈ path.links, ∀ link,
        snapshot.linkMap.lookup id = some link → EndsBy draft'.plan.expiresAt link := by
  induction rounds generalizing draft with
  | nil =>
    obtain rfl := h
    exact ⟨le_rfl, fun r hr => absurd hr not_mem_nil⟩
  | cons r rounds ih =>
    obtain ⟨rfl, -, h⟩ := h
    obtain ⟨hle, hends⟩ := ih h
    obtain ⟨hle', hends'⟩ := foldl_lowerLink snapshot.linkMap (r.paths.flatMap Path.links)
      r.before.plan.expiresAt
    refine ⟨hle.trans hle', forall_mem_cons.mpr ⟨fun path hpath id hid link hlink => ?_, hends⟩⟩
    exact (hends' id (mem_flatMap.mpr ⟨path, hpath, hid⟩) link hlink).mono hle

variable {id : String}

theorem Run.mem_paths {paths : List Path} (hpaths : draft'.plan.paths.lookup id = some paths) :
    (∃ r ∈ rounds, r.intent.id = id ∧ r.paths = paths) ∨
      draft.plan.paths.lookup id = some paths := by
  induction rounds generalizing draft with
  | nil =>
    obtain rfl := h
    exact .inr hpaths
  | cons r rounds ih =>
    obtain ⟨rfl, -, h⟩ := h
    rcases ih h with ⟨r', hr', hid⟩ | hbefore
    · exact .inl ⟨r', mem_cons_of_mem r hr', hid⟩
    by_cases hid : id = r.intent.id
    · subst hid
      have hlookup : (r.after snapshot).plan.paths.lookup r.intent.id = some r.paths :=
        AList.lookup_insert _
      rw [hlookup] at hbefore
      exact .inl ⟨r, mem_cons_self, rfl, Option.some.inj hbefore⟩
    · exact .inr ((AList.lookup_insert_ne hid).symm.trans hbefore)

theorem Run.paths_lookup_of_ne (hne : ∀ r ∈ rounds, r.intent.id ≠ id) :
    draft'.plan.paths.lookup id = draft.plan.paths.lookup id := by
  induction rounds generalizing draft with
  | nil =>
    obtain rfl := h
    rfl
  | cons r rounds ih =>
    obtain ⟨rfl, -, h⟩ := h
    rw [ih h fun r' hr' => hne r' (mem_cons_of_mem r hr')]
    exact AList.lookup_insert_ne (hne r mem_cons_self).symm

theorem Run.paths_lookup (hnodup : (rounds.map fun r => r.intent.id).Nodup) :
    ∀ r ∈ rounds, draft'.plan.paths.lookup r.intent.id = some r.paths := by
  induction rounds generalizing draft with
  | nil => exact fun r hr => absurd hr not_mem_nil
  | cons r rounds ih =>
    obtain ⟨rfl, -, h⟩ := h
    rw [map_cons, nodup_cons] at hnodup
    refine forall_mem_cons.mpr ⟨?_, ih h hnodup.2⟩
    rw [h.paths_lookup_of_ne fun r' hr' heq => hnodup.1 (mem_map.mpr ⟨r', hr', heq⟩)]
    exact AList.lookup_insert _

end

structure Records (plan : RoutePlan) (rounds : List Round) : Prop where
  intents : plan.intents = rounds.map Round.intent
  routes : ∀ route, route ∈ plan.routes ↔ ∃ r ∈ rounds, route ∈ r.routes
  mem_paths : ∀ id paths, plan.paths.lookup id = some paths →
    ∃ r ∈ rounds, r.intent.id = id ∧ r.paths = paths
  paths_lookup : (rounds.map fun r => r.intent.id).Nodup →
    ∀ r ∈ rounds, plan.paths.lookup r.intent.id = some r.paths

theorem Built.records {digest : Payload → String} {intents : List RouteIntent} {plan : RoutePlan}
    (h : Built digest p clock snapshot intents now rounds draft plan) : Records plan rounds := by
  obtain ⟨hintents, hroutes, -⟩ := h.run.plan
  rw [h.plan_eq]
  refine ⟨hintents, fun route => ?_, fun id paths hpaths => ?_, h.run.paths_lookup⟩
  · rw [Draft.finish, mem_sortRoutes, hroutes, startDraft, nil_append, mem_flatMap]
  · refine (h.run.mem_paths hpaths).resolve_right fun hstart => ?_
    have hempty : (startDraft p snapshot now).plan.paths.lookup id = none := rfl
    cases hstart

end

end StarFabric.Planner

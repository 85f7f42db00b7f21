import StarFabric.Planner.Redundancy
import StarFabric.Policy.Checked
import StarFabric.App.Controller

/-!
# Planning and panics

`Build` written once more with every division, index, slice and write to a map checked
(`checkedBuild`). With the built-in policies it computes what `build` does
(`checkedBuild_eq_build`), but for the slice of the interior nodes of a path from a node to itself
(`checkedBuild_panics_iff`).
-/

namespace StarFabric.Planner

open Except ExceptFold Go List Policy

/-! ### The build with checks -/

def checkedCompute (clock : Time) (name : String) (snapshot : TopologySnapshot)
    (intent : RouteIntent) (options : Options) : Except Failure Path :=
  if Registry.resolveName name ∈ builtins then
    checkedShortest clock snapshot intent (Registry.resolveName name) options
  else .error (.error ("unknown path policy " ++ quote (Registry.resolveName name)))

/-- One round of the loop in `selectDestination`. A panic in it ends the loop. -/
def checkedConsider (p : Planner) (clock : Time) (snapshot : TopologySnapshot)
    (intent : RouteIntent) (now : Time) (s : Selection) (destination : String) :
    Except Failure Selection :=
  match checkedCompute clock intent.policy snapshot { intent with destination := destination }
      { at_ := now, maxTelemetryAge := p.maxTelemetryAge } with
  | .error (.panic text) => .error (.panic text)
  | .error (.error e) => .ok { s with failures := s.failures ++ [destination ++ ": " ++ e] }
  | .ok path =>
    if s.selectedDestination = "" ∨ path.cost < s.selected.cost ∨
        (path.cost = s.selected.cost ∧ destination < s.selectedDestination) then
      .ok { s with selected := path, selectedDestination := destination }
    else .ok s

def checkedSelectDestination (p : Planner) (clock : Time) (snapshot : TopologySnapshot)
    (intent : RouteIntent) (now : Time) : Except Failure (RouteIntent × Path) :=
  if candidates intent = [] then .error (.error "no destination candidate")
  else do
    let s ← (candidates intent).foldlM (checkedConsider p clock snapshot intent now) {}
    if s.selectedDestination = "" then
      .error (.error ("no reachable destination: " ++ joinErrors s.failures))
    else .ok ({ intent with destination := s.selectedDestination }, s.selected)

def checkedBackups (p : Planner) (policyName : String) (clock : Time)
    (snapshot : TopologySnapshot) (intent : RouteIntent) :
    ℕ → ℕ → Path → MapOptions → Except Failure (List Path)
  | 0, _, _, _ => .ok []
  | count + 1, index, previous, options => do
    let label := "intent " ++ quote intent.id ++ " backup " ++ toString (index + 1) ++ ": "
    let (backup, options) ← (checkedDisjoint policyName clock snapshot intent previous
      p.nodeDisjoint options).mapError (Failure.wrap label)
    let rest ← checkedBackups p policyName clock snapshot intent count (index + 1) backup options
    return backup :: rest

/-- The paths after the primary one. The maps of the options are made here. -/
def checkedComputeBackups (p : Planner) (clock : Time) (snapshot : TopologySnapshot)
    (intent : RouteIntent) (primary : Path) (now : Time) : Except Failure (List Path) :=
  if 0 < intent.redundancy then
    if Registry.resolveName intent.policy ∈ builtins then
      checkedBackups p (Registry.resolveName intent.policy) clock snapshot intent
        intent.redundancy.toNat 0 primary
        { at_ := now, maxTelemetryAge := p.maxTelemetryAge, excludedLinks := some []
          excludedNodes := some [], excludedRiskGroups := some [] }
    else .error (.error ("intent " ++ quote intent.id ++ ": unknown path policy " ++
      quote intent.policy))
  else .ok []

def checkedPathRoutes (nodes : Map Node) (intent : RouteIntent) (primary : Path)
    (entry : Path × ℕ) : Except Failure (List RouteOperation) := do
  let hops ← checkedHops entry.1
  hops.mapM (hopRoute nodes intent (roleMetric intent primary entry.2 entry.1))

def checkedPlanIntent (p : Planner) (clock : Time) (snapshot : TopologySnapshot) (now : Time)
    (draft : Draft) (intent : RouteIntent) : Except Failure Draft := do
  let label := "intent " ++ quote intent.id
  check (label ++ ": ") intent.validate
  let _ ← check (label ++ " destination prefix: ") (parsePrefix intent.destinationPrefix)
  let (chosen, primary) ← (checkedSelectDestination p clock draft.residual intent now).mapError
    (Failure.wrap (label ++ ": "))
  let backups ← checkedComputeBackups p clock draft.residual chosen primary now
  let routes ← (primary :: backups).zipIdx.mapM
    (checkedPathRoutes snapshot.nodeMap chosen primary)
  return draft.commit snapshot chosen primary backups routes.flatten

def checkedBuild (digest : Payload → String) (p : Planner) (clock : Time)
    (snapshot : TopologySnapshot) (intents : List RouteIntent) (now : Time) :
    Except Failure RoutePlan := do
  check "" snapshot.validate
  let now := buildTime clock now
  if !snapshot.validUntil.isZero && !(now < snapshot.validUntil) then
    .error (.error "topology snapshot has expired")
  else
    let draft ← (orderIntents intents).foldlM (checkedPlanIntent p clock snapshot now)
      (startDraft p snapshot now)
    let plan := draft.finish snapshot
    if !(now < plan.expiresAt) then
      .error (.error "computed route has no remaining contact-window lifetime")
    else .ok { plan with id := planID digest plan }

section Checked

variable {p : Planner} {clock now : Time} {snapshot : TopologySnapshot} {intent : RouteIntent}

theorem policy_eq (name : String) : (Registry.new []).policy name =
    if Registry.resolveName name ∈ builtins then some (costPolicy (Registry.resolveName name))
    else none := by
  by_cases hbuiltin : Registry.resolveName name ∈ builtins
  · rw [if_pos hbuiltin]
    exact Registry.base.builtin _ hbuiltin
  · rw [if_neg hbuiltin, Option.eq_none_iff_forall_ne_some]
    intro policy hpolicy
    exact hbuiltin (Registry.base_lookup hpolicy).1

theorem checkedCompute_eq (hp : p.policies = Registry.new []) (name : String)
    (options : Options) : checkedCompute clock name snapshot intent options =
      (p.policies.compute clock name snapshot intent options).mapError Failure.error := by
  unfold checkedCompute Registry.compute
  rw [hp, policy_eq]
  split_ifs
  · exact checkedShortest_eq
  · rfl

theorem checkedConsider_eq (hp : p.policies = Registry.new []) (s : Selection)
    (destination : String) : checkedConsider p clock snapshot intent now s destination =
      .ok (consider p clock snapshot intent now s destination) := by
  unfold checkedConsider consider
  rw [checkedCompute_eq hp]
  cases p.policies.compute clock intent.policy snapshot { intent with destination := destination }
      { at_ := now, maxTelemetryAge := p.maxTelemetryAge } with
  | error e => rfl
  | ok path =>
    dsimp only [Except.mapError]
    split_ifs
    · rfl
    · rfl

theorem checkedSelectDestination_eq (hp : p.policies = Registry.new []) :
    checkedSelectDestination p clock snapshot intent now =
      (selectDestination p clock snapshot intent now).mapError Failure.error := by
  have hloop : (candidates intent).foldlM (checkedConsider p clock snapshot intent now) {} =
      .ok ((candidates intent).foldl (consider p clock snapshot intent now) {}) := by
    rw [show checkedConsider p clock snapshot intent now = fun s destination =>
      .ok (consider p clock snapshot intent now s destination) from
      funext fun s => funext fun destination => checkedConsider_eq hp s destination]
    exact foldlM_pure
  unfold checkedSelectDestination selectDestination
  rw [hloop]
  by_cases hnone : candidates intent = []
  · rw [if_pos hnone, if_pos hnone]
    rfl
  · rw [if_neg hnone, if_neg hnone]
    dsimp only [bind, Except.bind]
    split_ifs
    · rfl
    · rfl

theorem checkedBackups_eq (policyName : String) (count index : ℕ) (previous : Path)
    (options : MapOptions) :
    checkedBackups p policyName clock snapshot intent count index previous options =
      backups p (costPolicy policyName) clock snapshot intent count index previous
        options.read := by
  induction count generalizing index previous options with
  | zero => rfl
  | succ count ih =>
    unfold checkedBackups backups
    rw [← checkedDisjoint_eq]
    cases checkedDisjoint policyName clock snapshot intent previous p.nodeDisjoint options with
    | error e => rfl
    | ok out =>
      obtain ⟨backup, after⟩ := out
      show (checkedBackups p policyName clock snapshot intent count (index + 1) backup after >>=
        fun rest => pure (backup :: rest)) = _
      rw [ih]
      rfl

theorem checkedComputeBackups_eq (hp : p.policies = Registry.new []) (primary : Path) :
    checkedComputeBackups p clock snapshot intent primary now =
      computeBackups p clock snapshot intent primary now := by
  unfold checkedComputeBackups computeBackups
  rw [hp, policy_eq]
  split_ifs
  · exact checkedBackups_eq _ _ _ _ _
  · rfl
  · rfl

theorem checkedPathRoutes_eq (nodes : Map Node) (primary : Path) :
    checkedPathRoutes nodes intent primary = pathRoutes nodes intent primary := by
  funext entry
  unfold checkedPathRoutes pathRoutes
  rw [checkedHops_eq]
  rfl

theorem checkedPlanIntent_eq (hp : p.policies = Registry.new []) (draft : Draft)
    (input : RouteIntent) : checkedPlanIntent p clock snapshot now draft input =
      planIntent p clock snapshot now draft input := by
  have hwrap : ∀ (label : String) (x : Except String (RouteIntent × Path)),
      (x.mapError Failure.error).mapError (Failure.wrap label) = check label x := by
    intro label x
    cases x with
    | error e => rfl
    | ok out => rfl
  unfold checkedPlanIntent planIntent intentRoutes
  simp only [checkedSelectDestination_eq hp, hwrap, checkedComputeBackups_eq hp,
    checkedPathRoutes_eq, bind_assoc, pure_bind]

theorem checkedBuild_eq_build (hp : p.policies = Registry.new []) (digest : Payload → String)
    (intents : List RouteIntent) : checkedBuild digest p clock snapshot intents now =
      build digest p clock snapshot intents now := by
  have hround : checkedPlanIntent p clock snapshot = planIntent p clock snapshot :=
    funext fun now => funext fun draft => funext fun input => checkedPlanIntent_eq hp draft input
  unfold checkedBuild build
  rw [hround]

end Checked

/-! ### The paths from a node to itself -/

/-- Once the loop of `selectDestination` has come to the source, it stays there. -/
def Selection.AtSource (intent : RouteIntent) (seen : List String) (s : Selection) : Prop :=
  intent.source ∈ seen → s.selectedDestination = intent.source ∧ s.selected.cost = 0

section Source

variable {p : Planner} {clock now : Time} {snapshot : TopologySnapshot} {intent : RouteIntent}
  {s : Selection}

theorem compute_eq_shortest (hp : p.policies = Registry.new [])
    (hbuiltin : Registry.resolveName intent.policy ∈ builtins) (destination : RouteIntent)
    (options : Options) : p.policies.compute clock intent.policy snapshot destination options =
      shortest clock snapshot destination (Registry.resolveName intent.policy) options := by
  unfold Registry.compute
  rw [hp, policy_eq, if_pos hbuiltin]
  rfl

variable (hp : p.policies = Registry.new []) (hclock : now = 0 → clock = 0)
  (hbuiltin : Registry.resolveName intent.policy ∈ builtins) (hvalid : intent.Valid)
  (henabled : enabled snapshot (searchOptions p now) intent.source = true)
include hp hclock hbuiltin hvalid henabled

theorem Selection.AtSource.consider {seen : List String} {destination : String}
    (hcomputed : s.Computed p clock snapshot intent now) (h : s.AtSource intent seen) :
    (consider p clock snapshot intent now s destination).AtSource intent
      (seen ++ [destination]) := by
  intro hmem
  have hsource : intent.source ≠ "" := hvalid.text.2.1
  have hresolve : (searchOptions p now).resolve clock = searchOptions p now :=
    resolve_searchOptions hclock (Options.Le.refl _)
  unfold Planner.consider
  rw [compute_eq_shortest hp hbuiltin]
  by_cases hself : destination = intent.source
  · -- the search from the source to itself succeeds at no cost
    subst hself
    have hshortest : shortest clock snapshot { intent with destination := intent.source }
        (Registry.resolveName intent.policy) (searchOptions p now) =
          .ok (compose intent.source 0 []) :=
      shortest_self ⟨hvalid.text, .inl hsource, hvalid.redundancy, hvalid.capacity⟩ rfl
        (hresolve.symm ▸ henabled)
    show _ ∧ _
    unfold searchOptions at hshortest
    rw [hshortest]
    dsimp only
    split_ifs with hbetter
    · exact ⟨rfl, compose_cost ..⟩
    · -- what was selected before costs nothing either, so it was the source
      simp only [not_or, not_lt, compose_cost] at hbetter
      obtain ⟨hsome, hle, -⟩ := hbetter
      obtain ⟨-, hcompute⟩ := hcomputed hsome
      rw [compute_eq_shortest hp hbuiltin] at hcompute
      obtain ⟨edges, hfound⟩ := shortest_found hcompute
      rcases hfound.cost_cases with ⟨heq, hzero, -⟩ | ⟨-, hpos, -⟩
      · exact ⟨heq.symm, hzero⟩
      · exact absurd hpos (not_lt.mpr hle)
  · have hseen : intent.source ∈ seen :=
      (mem_append.mp hmem).resolve_right fun hlast =>
        hself (mem_singleton.mp hlast).symm
    obtain ⟨hselected, hcost⟩ := h hseen
    cases hcompute : shortest clock snapshot { intent with destination := destination }
        (Registry.resolveName intent.policy)
        { at_ := now, maxTelemetryAge := p.maxTelemetryAge } with
    | error e => exact ⟨hselected, hcost⟩
    | ok path =>
      obtain ⟨edges, hfound⟩ := shortest_found hcompute
      rcases hfound.cost_cases with ⟨heq, -⟩ | ⟨-, hpos, -⟩
      · exact absurd heq.symm hself
      · dsimp only
        rw [if_neg]
        · exact ⟨hselected, hcost⟩
        · rintro (hnone | hless | ⟨hsame, -⟩)
          · exact hsource (hselected.symm.trans hnone)
          · exact absurd (hpos.trans hless) (by rw [hcost]; exact lt_irrefl 0)
          · exact hpos.ne (hcost.symm.trans hsame.symm)

theorem selectDestination_source (hmem : intent.source ∈ candidates intent) :
    ∃ primary, selectDestination p clock snapshot intent now =
      .ok ({ intent with destination := intent.source }, primary) := by
  have hloop : ∀ (cs seen : List String) (s : Selection),
      s.Computed p clock snapshot intent now → s.AtSource intent seen →
      (∀ c ∈ cs, c ∈ candidates intent) →
      (cs.foldl (consider p clock snapshot intent now) s).AtSource intent (seen ++ cs) := by
    intro cs
    induction cs with
    | nil =>
      intro seen s _ hat _
      rwa [append_nil]
    | cons c cs ih =>
      intro seen s hcomputed hat hcs
      obtain ⟨hc, hcs⟩ := forall_mem_cons.mp hcs
      have hnext := ih (seen ++ [c]) _ (hcomputed.consider hc)
        (hat.consider hp hclock hbuiltin hvalid henabled hcomputed) hcs
      rwa [append_assoc] at hnext
  obtain ⟨hselected, -⟩ := hloop (candidates intent) [] {} (fun hne => absurd rfl hne)
    nofun (fun _ hc => hc) hmem
  have hsource : intent.source ≠ "" := hvalid.text.2.1
  unfold selectDestination
  rw [if_neg (ne_nil_of_mem hmem)]
  rw [if_neg (by rw [hselected]; exact hsource), hselected]
  exact ⟨_, rfl⟩

end Source

/-! ### Where a build panics -/

def sliceText : String := "slice bounds out of range"

section Panics

variable {p : Planner} {clock now : Time} {snapshot : TopologySnapshot} {intent : RouteIntent}
  {text : String}

variable {policyName : String} {options : Options}

theorem length_nodes_lt_iff {path : Path}
    (h : shortest clock snapshot intent policyName options = .ok path) :
    path.nodes.length < 2 ↔ intent.source = intent.destination := by
  obtain ⟨edges, hfound⟩ := shortest_found h
  rcases hfound.cost_cases with ⟨heq, -, hlength⟩ | ⟨hne, -, hlength⟩
  · exact iff_of_true (by omega) heq
  · exact iff_of_false (by omega) hne

variable {α : Type} {label : String}

theorem mapError_wrap_eq_panic {x : Except Failure α} :
    x.mapError (Failure.wrap label) = .error (.panic text) ↔ x = .error (.panic text) := by
  cases x with
  | ok a => exact iff_of_false nofun nofun
  | error e =>
    cases e with
    | error e => exact iff_of_false nofun nofun
    | panic e => exact Iff.rfl

theorem check_ne_panic {x : Except String α} : check label x ≠ .error (.panic text) := by
  cases x with
  | ok a => exact nofun
  | error e => exact nofun

variable {primary : Path} {nodeDisjoint : Bool}

theorem exclude_eq_panic_iff :
    exclude snapshot primary nodeDisjoint options = .error (.panic text) ↔
      text = sliceText ∧ nodeDisjoint = true ∧ primary.nodes.length < 2 := by
  unfold exclude
  cases nodeDisjoint with
  | false => exact iff_of_false nofun fun h => Bool.false_ne_true h.2.1
  | true =>
    rw [if_pos rfl]
    split_ifs with hlength
    · refine ⟨fun h => ⟨?_, rfl, hlength⟩, fun h => h.1 ▸ rfl⟩
      exact (Failure.panic.inj (error.inj h)).symm
    · exact iff_of_false nofun fun h => hlength h.2.2

theorem disjointWithPolicy_eq_panic_iff {engine : PathPolicy} :
    disjointWithPolicy engine clock snapshot intent primary nodeDisjoint options =
        .error (.panic text) ↔
      text = sliceText ∧ nodeDisjoint = true ∧ primary.nodes.length < 2 := by
  refine Iff.trans (b := exclude snapshot primary nodeDisjoint options = .error (.panic text)) ?_
    exclude_eq_panic_iff
  unfold disjointWithPolicy
  cases exclude snapshot primary nodeDisjoint options with
  | error e => rw [error.injEq, error.injEq]
  | ok after =>
    dsimp only
    cases engine.compute clock snapshot intent after with
    | error e => exact iff_of_false nofun nofun
    | ok path => exact iff_of_false nofun nofun

theorem backups_eq_panic_iff {count index : ℕ} {previous : Path} {options : Options}
    (hprevious : previous.nodes.length < 2 ↔ intent.source = intent.destination) :
    backups p (costPolicy policyName) clock snapshot intent (count + 1) index previous options =
        .error (.panic text) ↔
      text = sliceText ∧ p.nodeDisjoint = true ∧ intent.source = intent.destination := by
  unfold backups
  rw [bind_eq_error, mapError_wrap_eq_panic, disjointWithPolicy_eq_panic_iff, hprevious]
  refine or_iff_left_of_imp ?_
  rintro ⟨⟨backup, after⟩, hdisjoint, h⟩
  obtain ⟨-, hcompute⟩ := disjointWithPolicy_eq_ok (mapError_eq_ok.mp hdisjoint)
  cases count with
  | zero => cases h
  | succ count =>
    rcases bind_eq_error.mp h with h | ⟨_, -, h⟩
    · exact (backups_eq_panic_iff (length_nodes_lt_iff hcompute)).mp h
    · cases h

variable {nodes : Map Node}

theorem hopRoute_ne_panic {role : String × ℤ} {hop : String × String} :
    hopRoute nodes intent role hop ≠ .error (.panic text) := by
  unfold hopRoute
  cases nodes.lookup hop.2 with
  | none => exact nofun
  | some nextHop =>
    dsimp only
    cases ((nodes.lookup hop.1).getD default).nextHopAddress nextHop with
    | error e => exact nofun
    | ok address => exact nofun

theorem intentRoutes_ne_panic {paths : List Path} :
    intentRoutes nodes intent primary paths ≠ .error (.panic text) := by
  intro h
  rcases bind_eq_error.mp h with h | ⟨_, -, h⟩
  · obtain ⟨entry, -, h⟩ := mapM_eq_error h
    obtain ⟨hop, -, h⟩ := mapM_eq_error h
    exact hopRoute_ne_panic h
  · cases h

theorem mem_builtins_of_compute (hp : p.policies = Registry.new []) {name : String}
    (h : p.policies.compute clock name snapshot intent options = .ok primary) :
    Registry.resolveName name ∈ builtins := by
  by_contra hnot
  unfold Registry.compute at h
  rw [hp, policy_eq, if_neg hnot] at h
  cases h

theorem computeBackups_eq_panic_iff (hp : p.policies = Registry.new [])
    (hprimary : p.policies.compute clock intent.policy snapshot intent options = .ok primary) :
    computeBackups p clock snapshot intent primary now = .error (.panic text) ↔
      text = sliceText ∧ p.nodeDisjoint = true ∧ intent.source = intent.destination ∧
        0 < intent.redundancy := by
  have hbuiltin := mem_builtins_of_compute hp hprimary
  rw [compute_eq_shortest hp hbuiltin] at hprimary
  unfold computeBackups
  rw [hp, policy_eq, if_pos hbuiltin]
  by_cases hredundancy : 0 < intent.redundancy
  · obtain ⟨count, hcount⟩ : ∃ count, intent.redundancy.toNat = count + 1 :=
      ⟨intent.redundancy.toNat - 1, by omega⟩
    rw [if_pos hredundancy, hcount]
    rw [backups_eq_panic_iff (length_nodes_lt_iff hprimary)]
    simp [hredundancy]
  · rw [if_neg hredundancy]
    exact iff_of_false nofun fun h => hredundancy h.2.2.2

variable {draft : Draft}

/-- **A round panics** exactly when the source of a valid intent is among its destinations, with a
backup to compute and disjoint nodes configured. -/
theorem planIntent_eq_panic_iff (hp : p.policies = Registry.new []) (hclock : now = 0 → clock = 0) :
    planIntent p clock snapshot now draft intent = .error (.panic text) ↔
      text = sliceText ∧ p.nodeDisjoint = true ∧ intent.Valid ∧
      (∃ parsed, parsePrefix intent.destinationPrefix = .ok parsed) ∧
      Registry.resolveName intent.policy ∈ builtins ∧
      enabled draft.residual (searchOptions p now) intent.source = true ∧
      intent.source ∈ candidates intent ∧ 0 < intent.redundancy := by
  constructor
  · intro h
    obtain ⟨⟨⟩, hvalid, h⟩ := (bind_eq_error.mp h).resolve_left check_ne_panic
    obtain ⟨parsed, hparsed, h⟩ := (bind_eq_error.mp h).resolve_left check_ne_panic
    obtain ⟨⟨chosen, primary⟩, hselect, h⟩ := (bind_eq_error.mp h).resolve_left check_ne_panic
    rw [check, mapError_eq_ok] at hvalid hparsed hselect
    obtain ⟨destination, hmem, -, rfl, hcompute⟩ := selectDestination_spec hselect
    rcases bind_eq_error.mp h with h | ⟨_, -, h⟩
    · obtain ⟨rfl, hdisjoint, hself, hredundancy⟩ := (computeBackups_eq_panic_iff hp hcompute).mp h
      have hbuiltin := mem_builtins_of_compute hp hcompute
      rw [compute_eq_shortest hp hbuiltin] at hcompute
      obtain ⟨⟨henabled, -⟩, -⟩ := shortest_eq_ok hcompute
      rw [resolve_searchOptions hclock (Options.Le.refl _)] at henabled
      refine ⟨rfl, hdisjoint, RouteIntent.validate_eq_ok_iff.mp hvalid, ⟨parsed, hparsed⟩,
        hbuiltin, henabled, ?_, hredundancy⟩
      have hsource : intent.source = destination := hself
      exact hsource ▸ hmem
    · -- nothing that follows panics
      rcases bind_eq_error.mp h with h | ⟨_, -, h⟩
      · exact absurd h intentRoutes_ne_panic
      · cases h
  · rintro ⟨rfl, hdisjoint, hvalid, ⟨parsed, hparsed⟩, hbuiltin, henabled, hmem, hredundancy⟩
    obtain ⟨primary, hselect⟩ := selectDestination_source hp hclock hbuiltin hvalid henabled hmem
    obtain ⟨destination, -, -, -, hcompute⟩ := selectDestination_spec hselect
    have hok : ∀ {α : Type} {label : String} {x : Except String α} {a : α}, x = .ok a →
        check label x = .ok a := mapError_eq_ok.mpr
    have hpanics : computeBackups p clock draft.residual
        { intent with destination := intent.source } primary now = .error (.panic sliceText) :=
      (computeBackups_eq_panic_iff hp hcompute).mpr ⟨rfl, hdisjoint, rfl, hredundancy⟩
    refine bind_eq_error.mpr (.inr ⟨(), ?_, bind_eq_error.mpr
      (.inr ⟨parsed, hok hparsed, bind_eq_error.mpr
        (.inr ⟨_, hok hselect, bind_eq_error.mpr (.inl hpanics)⟩)⟩)⟩)
    exact hok (RouteIntent.validate_eq_ok_iff.mpr hvalid)

theorem enabled_residual (hp : p.policies = Registry.new []) (hvalid : snapshot.Valid)
    (hclock : now = 0 → clock = 0) {done : List RouteIntent}
    (h : done.foldlM (planIntent p clock snapshot now) (startDraft p snapshot now) = .ok draft)
    (options : Options) : enabled draft.residual options = enabled snapshot options := by
  have hsound : p.policies.Sound := hp ▸ Registry.new_sound nofun
  obtain ⟨rounds, hrun, -⟩ := foldlM_planIntent h
  obtain ⟨hacc, -⟩ := hrun.accounted_start hsound hclock hvalid
  rw [hacc.residual_eq]
  rfl

/-- **When planning panics.** With the built-in policies a build panics exactly when disjoint nodes
are configured and the loop over the intents reaches a valid one with an enabled source that is
among its own destinations, and with a backup to compute. The panic is that of the slice of the
interior nodes. All other operations that could panic succeed. -/
theorem checkedBuild_panics_iff {digest : Payload → String} {intents : List RouteIntent}
    (hp : p.policies = Registry.new []) :
    checkedBuild digest p clock snapshot intents now = .error (.panic text) ↔
      text = sliceText ∧ p.nodeDisjoint = true ∧ snapshot.Valid ∧
      (snapshot.validUntil = 0 ∨ buildTime clock now < snapshot.validUntil) ∧
      ∃ done intent rest draft, orderIntents intents = done ++ intent :: rest ∧
        done.foldlM (planIntent p clock snapshot (buildTime clock now))
          (startDraft p snapshot (buildTime clock now)) = .ok draft ∧
        intent.Valid ∧ (∃ parsed, parsePrefix intent.destinationPrefix = .ok parsed) ∧
        Registry.resolveName intent.policy ∈ builtins ∧
        enabled snapshot (searchOptions p (buildTime clock now)) intent.source = true ∧
        intent.source ∈ candidates intent ∧ 0 < intent.redundancy := by
  have halive :
      (!snapshot.validUntil.isZero && !(buildTime clock now < snapshot.validUntil)) = true ↔
        ¬ (snapshot.validUntil = 0 ∨ buildTime clock now < snapshot.validUntil) := by
    simp [Time.isZero]
  rw [checkedBuild_eq_build hp]
  unfold build
  rw [bind_eq_error, or_iff_right check_ne_panic]
  constructor
  · rintro ⟨⟨⟩, hvalid, h⟩
    rw [check, mapError_eq_ok, TopologySnapshot.validate_eq_ok_iff] at hvalid
    dsimp only at h
    split_ifs at h with hexpired
    · cases h
    rcases bind_eq_error.mp h with h | ⟨draft, -, h⟩
    · obtain ⟨done, intent, rest, draft, heq, hdone, h⟩ := foldlM_eq_error_iff.mp h
      obtain ⟨rfl, hdisjoint, hintent, hparses, hbuiltin, henabled, hmem, hredundancy⟩ :=
        (planIntent_eq_panic_iff hp clock_eq_zero).mp h
      rw [enabled_residual hp hvalid clock_eq_zero hdone] at henabled
      exact ⟨rfl, hdisjoint, hvalid, not_not.mp (mt halive.mpr hexpired), done, intent, rest, draft,
        heq, hdone, hintent, hparses, hbuiltin, henabled, hmem, hredundancy⟩
    · -- nothing after the loop panics
      split_ifs at h
      · cases h
  · rintro ⟨rfl, hdisjoint, hvalid, htime, done, intent, rest, draft, heq, hdone, hintent, hparses,
      hbuiltin, henabled, hmem, hredundancy⟩
    refine ⟨(), mapError_eq_ok.mpr (TopologySnapshot.validate_eq_ok_iff.mpr hvalid), ?_⟩
    rw [if_neg (mt halive.mp (not_not.mpr htime))]
    rw [← enabled_residual hp hvalid clock_eq_zero hdone] at henabled
    have hround : planIntent p clock snapshot (buildTime clock now) draft intent =
        .error (.panic sliceText) :=
      (planIntent_eq_panic_iff hp clock_eq_zero).mpr
        ⟨rfl, hdisjoint, hintent, hparses, hbuiltin, henabled, hmem, hredundancy⟩
    exact bind_eq_error.mpr (.inl (foldlM_eq_error_iff.mpr
      ⟨done, intent, rest, draft, heq, hdone, hround⟩))

end Panics

theorem checkedBuild_panics_iff_diamond :
    (new {}).policies = Registry.new [] ∧
      checkedBuild (fun _ => "0") (new {}) 0 diamond [diamondIntent] 1 ≠
        .error (.panic sliceText) := by
  refine ⟨rfl, fun h => ?_⟩
  have hdisjoint := ((checkedBuild_panics_iff rfl).mp h).2.1
  exact Bool.false_ne_true hdisjoint

def loopIntent : RouteIntent :=
  { id := "i", source := "s", destination := "s", destinationPrefix := "10.1.0.0/16"
    redundancy := 1 }

/-- **A panic.** `SetIntents` accepts an intent whose source is its destination, and planning a
backup for it under disjoint nodes slices a list of one node. -/
theorem loop_intent_panics :
    diamond.Valid ∧ App.checkIntents "intent " [] [loopIntent] = .ok () ∧
      checkedBuild (fun _ => "0") (new { nodeDisjoint := true }) 0 diamond [loopIntent] 1 =
        .error (.panic "slice bounds out of range") := by
  refine ⟨TopologySnapshot.validate_eq_ok_iff.mp (by decide +kernel), by decide +kernel, ?_⟩
  rfl

end StarFabric.Planner

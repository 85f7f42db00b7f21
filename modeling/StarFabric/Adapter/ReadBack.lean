import StarFabric.Adapter.Frr
import StarFabric.Model.RouteOrder
import StarFabric.Reconcile.Reconciler

/-!
# Reading the FRR adapter back

`State` of `internal/adapter/frr/frr.go` looks each route up in the answer of the router, by the
texts of the prefix and the next hop. The router prints canonical texts (`Router`), so a route is
recognised if and only if its texts are canonical (`recognised_iff`), whereas `Prepare` accepts any
text that `netip` can parse.
-/

namespace StarFabric.Frr

open EffectProgram Except Go List

/-! ### `State` -/

/-- `routeEntry`: the next hops of an entry. -/
structure RouteEntry where
  nexthops : List String

inductive Output where
  | failed (err : String)
  | malformed (err : String)
  | table (routes : Map (List RouteEntry))

/-- `decodeInstalled`: whether a table has a next hop for a prefix. -/
def decodeInstalled (table : Map (List RouteEntry)) (routePrefix nextHop : String) : Bool :=
  ((table.lookup routePrefix).getD []).any fun entry => entry.nexthops.contains nextHop

/-- The family in which `State` looks a route up. -/
def family (route : RouteOperation) : Bool :=
  match parsePrefix route.routePrefix with
  | .ok (addr, _) => addr.is6
  | .error _ => false

/-- What a call of `State` meets: the answers of `vtysh` (`true` is IPv6), the family to which the
loop over the map comes first, and the fault of the state file. -/
structure StateEnv where
  shows : Bool → Output
  first : Bool := false
  write : Option Durable.WriteFault := none

/-- A round of the loop over the families: the routes of the family that are installed. -/
def observe (env : StateEnv) (name : String) (expected : List RouteOperation) (ipv6 : Bool) :
    Except String (List RouteOperation) :=
  let routes := expected.filter fun route => family route = ipv6
  -- a family without routes is not asked for
  if routes = [] then .ok []
  else match env.shows ipv6 with
    | .failed err => .error err
    | .malformed err => .error ("decode " ++ name ++ " route state: " ++ err)
    | .table table =>
      .ok (routes.filter fun route => decodeInstalled table route.routePrefix route.nextHop)

def Device.observed (env : StateEnv) (d : Device) : Except String (List RouteOperation) := do
  let routes ← observe env d.name d.routes env.first
  let others ← observe env d.name d.routes (!env.first)
  return sortRoutes (routes ++ others)

def Device.state (env : StateEnv) (d : Device) (file : Option PersistedState) :
    Except String DeviceState × Device × Option PersistedState :=
  match d.observed env with
  | .error err => (.error err, d, file)
  | .ok observed =>
    if observed.length = d.routes.length then
      (.ok ⟨d.name, true, d.appliedPlanID, observed⟩, d, file)
    else
      -- the routes stay with the device, so that a later plan can remove them
      let drifted := { d with appliedPlanID := "" }
      match drifted.persist env.write file with
      | (some err, file) => (.error ("persist observed FRR drift: " ++ err), drifted, file)
      | (none, file) => (.ok ⟨d.name, true, "", observed⟩, drifted, file)

/-! ### The router -/

/-- The octets of an address with all but the first `bits` bits cleared. -/
def maskOctets : ℕ → List ℕ → List ℕ
  | _, [] => []
  | bits, octet :: rest =>
    -- the octet in which the prefix ends keeps its high bits
    (if 8 ≤ bits then octet else octet / 2 ^ (8 - bits) * 2 ^ (8 - bits)) ::
      maskOctets (bits - 8) rest

def masked : Addr × ℕ → Addr × ℕ
  | (.v4 octets, bits) => (.v4 (maskOctets bits octets), bits)
  | (.v6 octets zone, bits) => (.v6 (maskOctets bits octets) zone, bits)

structure StaticRoute where
  dest : Addr × ℕ
  nextHop : Addr
  deriving DecidableEq, Repr

/-- A router: the static routes it has stored, and how it prints prefixes and addresses. Host bits
are cleared, and what is printed for a stored route is a text of its prefix and of its next hop. -/
structure Router where
  routes : List StaticRoute
  prefixText : Addr × ℕ → String
  addrText : Addr → String
  dest_masked : ∀ r ∈ routes, masked r.dest = r.dest
  parse_prefixText : ∀ r ∈ routes, parsePrefix (prefixText r.dest) = .ok r.dest
  parse_addrText : ∀ r ∈ routes, parseAddr (addrText r.nextHop) = .ok r.nextHop

namespace Router

/-- The router has stored the static route that the adapter has configured for a route. -/
def Stores (router : Router) (route : RouteOperation) : Prop :=
  ∃ r ∈ router.routes, (∃ dest, parsePrefix route.routePrefix = .ok dest ∧ masked dest = r.dest) ∧
    parseAddr route.nextHop = .ok r.nextHop

def Shows (router : Router) (shows : Bool → Output) : Prop :=
  ∀ ipv6, ∃ table, shows ipv6 = .table table ∧ ∀ routePrefix nextHop,
    decodeInstalled table routePrefix nextHop = true ↔
      ∃ r ∈ router.routes, r.dest.1.is6 = ipv6 ∧ router.prefixText r.dest = routePrefix ∧
        router.addrText r.nextHop = nextHop

/-- The texts of a route are those that the router prints. -/
structure Canonical (router : Router) (route : RouteOperation) : Prop where
  dest : ∃ dest, parsePrefix route.routePrefix = .ok dest ∧
    router.prefixText (masked dest) = route.routePrefix
  nextHop : ∃ addr, parseAddr route.nextHop = .ok addr ∧ router.addrText addr = route.nextHop

end Router

theorem is6_masked (dest : Addr × ℕ) : (masked dest).1.is6 = dest.1.is6 := by
  obtain ⟨addr, bits⟩ := dest
  cases addr <;> rfl

/-! ### What `State` recognises -/

section

variable {router : Router} {env : StateEnv} {route : RouteOperation}

/-- The router lists a route under the texts that the adapter has for it. -/
def Recognised (router : Router) (route : RouteOperation) : Prop :=
  ∃ r ∈ router.routes, r.dest.1.is6 = family route ∧ router.prefixText r.dest = route.routePrefix ∧
    router.addrText r.nextHop = route.nextHop

theorem recognised_iff (hstores : router.Stores route) :
    Recognised router route ↔ router.Canonical route := by
  obtain ⟨r, hr, ⟨dest, hdest, hmasked⟩, hnextHop⟩ := hstores
  constructor
  · -- what the router prints can be parsed, and has no host bits
    rintro ⟨s, hs, -, hprefixText, haddrText⟩
    refine ⟨⟨s.dest, ?_, ?_⟩, s.nextHop, ?_, haddrText⟩
    · rw [← hprefixText]
      exact router.parse_prefixText s hs
    · rw [router.dest_masked s hs]
      exact hprefixText
    · rw [← haddrText]
      exact router.parse_addrText s hs
  · rintro ⟨⟨dest', hdest', hprefixText⟩, addr, haddr, haddrText⟩
    -- the stored route is the one that these texts name
    cases ok.inj (hdest.symm.trans hdest')
    cases ok.inj (hnextHop.symm.trans haddr)
    rw [hmasked] at hprefixText
    refine ⟨r, hr, ?_, hprefixText, haddrText⟩
    unfold family
    rw [hdest, ← hmasked]
    exact is6_masked dest

theorem observe_eq (hshows : router.Shows env.shows) (name : String)
    (expected : List RouteOperation) : ∃ listed : RouteOperation → Bool,
      (∀ route, listed route = true ↔ Recognised router route) ∧
        ∀ ipv6, observe env name expected ipv6 =
          .ok ((expected.filter listed).filter fun route => family route = ipv6) := by
  choose table htable hlists using hshows
  refine ⟨fun route => decodeInstalled (table (family route)) route.routePrefix route.nextHop,
    fun route => hlists (family route) route.routePrefix route.nextHop, fun ipv6 => ?_⟩
  -- each family is looked up in its own table
  have hfilter : (expected.filter fun route => family route = ipv6).filter (fun route =>
        decodeInstalled (table ipv6) route.routePrefix route.nextHop) =
      (expected.filter fun route => decodeInstalled (table (family route)) route.routePrefix
        route.nextHop).filter fun route => family route = ipv6 := by
    rw [filter_filter, filter_filter]
    refine filter_congr fun route _ => ?_
    by_cases hfamily : family route = ipv6
    · rw [hfamily, Bool.and_comm]
    · simp [hfamily]
  unfold observe
  dsimp only
  rw [htable ipv6]
  split_ifs with hnone
  · rw [← hfilter, hnone]
    rfl
  · dsimp only
    rw [hfilter]

theorem observed_perm (hshows : router.Shows env.shows) (d : Device) :
    ∃ (listed : RouteOperation → Bool) (found : List RouteOperation),
      (∀ route, listed route = true ↔ Recognised router route) ∧
        found.Perm (d.routes.filter listed) ∧ d.observed env = .ok (sortRoutes found) := by
  obtain ⟨listed, hlisted, hobserve⟩ := observe_eq hshows d.name d.routes
  refine ⟨listed, (d.routes.filter listed).filter (fun route => family route = env.first) ++
    (d.routes.filter listed).filter (fun route => family route = !env.first), hlisted, ?_, ?_⟩
  · -- a route is in the one family or in the other
    have hother : ((d.routes.filter listed).filter fun route => family route = !env.first) =
        (d.routes.filter listed).filter fun route => !decide (family route = env.first) := by
      refine filter_congr fun route _ => ?_
      cases family route <;> cases env.first <;> rfl
    rw [hother]
    exact filter_append_perm _ _
  · unfold Device.observed
    rw [hobserve, hobserve]
    rfl

end

variable {d : Device} {planID : String}

theorem state_eq_iff {router : Router} {env : StateEnv} (hshows : router.Shows env.shows)
    {file : Option PersistedState} (hstores : ∀ route ∈ d.routes, router.Stores route)
    (hid : planID ≠ "") (happlied : d.appliedPlanID = planID) {share : List RouteOperation}
    (hkeys : (share.map sortKey).Nodup) :
    (d.state env file).1 = .ok ⟨d.name, true, planID, sortRoutes share⟩ ↔
      d.routes.Perm share ∧ ∀ route ∈ d.routes, router.Canonical route := by
  obtain ⟨listed, found, hlisted, hperm, hobserved⟩ := observed_perm hshows d
  -- `State` compares lengths: nothing is missing exactly when every route was found
  have hall : found.length = d.routes.length ↔ ∀ route ∈ d.routes, router.Canonical route := by
    rw [hperm.length_eq, length_filter_eq_length_iff]
    refine forall₂_congr fun route hroute => ?_
    rw [hlisted, recognised_iff (hstores route hroute)]
  unfold Device.state
  rw [hobserved]
  dsimp only
  rw [(sortRoutes_perm found).length_eq]
  by_cases hlength : found.length = d.routes.length
  · rw [if_pos hlength]
    have hfound : found.Perm d.routes := by
      rw [hperm.length_eq, length_filter_eq_length_iff] at hlength
      rw [filter_eq_self.mpr hlength] at hperm
      exact hperm
    constructor
    · intro hstate
      have hroutes : sortRoutes found = sortRoutes share :=
        congrArg DeviceState.routes (ok.inj hstate)
      refine ⟨hfound.symm.trans ?_, hall.mp hlength⟩
      exact (sortRoutes_perm found).symm.trans (hroutes ▸ sortRoutes_perm share)
    · rintro ⟨hshare, -⟩
      rw [sortRoutes_eq_of_perm hkeys (hfound.trans hshare), happlied]
  · rw [if_neg hlength]
    refine iff_of_false ?_ fun h => hlength (hall.mpr h.2)
    -- a device that has drifted reports no plan
    generalize Device.persist _ _ file = persisted
    obtain ⟨err, file'⟩ := persisted
    cases err with
    | some err => exact nofun
    | none =>
      intro hstate
      have hempty : "" = planID := congrArg DeviceState.appliedPlanID (ok.inj hstate)
      exact hid hempty.symm

/-! ### After `Prepare` and `Commit` -/

variable {env : Env} {w : World}

theorem commit_ok {tx : Transaction} (hnew : planID ≠ d.appliedPlanID)
    (hprepared : d.prepared planID = some tx) (hok : (d.commit env planID w).1 = none) :
    (d.commit env planID w).2.1.name = d.name ∧
      (d.commit env planID w).2.1.appliedPlanID = planID ∧
      (d.commit env planID w).2.1.routes = tx.desired := by
  unfold Device.commit at hok ⊢
  rw [if_neg hnew, hprepared] at hok ⊢
  dsimp only at hok ⊢
  -- the configuration is sent, and then the file is written
  generalize d.apply env.run d.routes tx.desired w.config = applied at hok ⊢
  obtain ⟨err, config⟩ := applied
  cases err with
  | some err => cases hok
  | none =>
    generalize Device.persist env.write _ w.file = persisted at hok ⊢
    obtain ⟨err, file⟩ := persisted
    cases err with
    | some err => cases hok
    | none => exact ⟨rfl, rfl, rfl⟩

/-- What the device has under the id of a plan already, applied or prepared, are the routes that the
plan has for it. -/
def Device.Knows (d : Device) (planID : String) (share : List RouteOperation) : Prop :=
  (planID = d.appliedPlanID → d.routes.Perm share) ∧
    (planID ≠ d.appliedPlanID → ∀ tx, d.prepared planID = some tx → tx.desired.Perm share)

variable {plan : RoutePlan}

/-- A `Prepare` that goes well leaves a transaction, the one that was prepared before or a new one
for the routes of the plan. -/
theorem prepare_record (hnew : plan.id ≠ d.appliedPlanID) (hprepare : (d.prepare plan).1 = .ok ()) :
    ∃ tx, (d.prepare plan).2.name = d.name ∧
      (d.prepare plan).2.appliedPlanID = d.appliedPlanID ∧
      (d.prepare plan).2.prepared plan.id = some tx ∧
      (tx.desired.Perm plan.routes ↔ d.Knows plan.id plan.routes) := by
  unfold Device.prepare at hprepare ⊢
  by_cases hid : plan.id = ""
  · rw [if_pos hid] at hprepare
    cases hprepare
  rw [if_neg hid, if_neg hnew] at hprepare ⊢
  cases hprepared : d.prepared plan.id with
  | some tx =>
    refine ⟨tx, rfl, rfl, hprepared, fun h => ⟨fun heq => absurd heq hnew, ?_⟩, fun h => ?_⟩
    · intro _ tx' htx'
      cases Option.some.inj (hprepared.symm.trans htx')
      exact h
    · exact h.2 hnew tx hprepared
  | none =>
    rw [hprepared] at hprepare
    cases hcheck : plan.routes.forM (Device.checkRoute d.name) with
    | error e =>
      rw [hcheck] at hprepare
      cases hprepare
    | ok _ =>
      -- the transaction has the routes of the plan, sorted
      refine ⟨_, rfl, rfl, Function.update_self _ _ _, fun _ => ⟨?_, ?_⟩, fun _ => ?_⟩
      · exact fun heq => absurd heq hnew
      · intro _ tx htx
        exact nomatch hprepared.symm.trans htx
      · exact sortRoutes_perm plan.routes

/-- After `Prepare` and `Commit` the device has the plan, with the routes of the plan if it did not
have others under its id. -/
theorem committed_record (hprepare : (d.prepare plan).1 = .ok ())
    (hcommit : ((d.prepare plan).2.commit env plan.id w).1 = none) :
    ((d.prepare plan).2.commit env plan.id w).2.1.name = d.name ∧
      ((d.prepare plan).2.commit env plan.id w).2.1.appliedPlanID = plan.id ∧
      (((d.prepare plan).2.commit env plan.id w).2.1.routes.Perm plan.routes ↔
        d.Knows plan.id plan.routes) := by
  by_cases happlied : plan.id = d.appliedPlanID
  · -- the plan is applied already, and both calls return at once
    have hstays : (d.prepare plan).2 = d := by
      unfold Device.prepare
      split_ifs <;> rfl
    have hcommitted : (d.commit env plan.id w).2.1 = d := by
      unfold Device.commit
      rw [if_pos happlied]
    rw [hstays, hcommitted]
    exact ⟨rfl, happlied.symm, fun h => ⟨fun _ => h, fun hne => absurd happlied hne⟩,
      fun h => h.1 happlied⟩
  · -- the transaction was prepared before, or it is prepared now
    obtain ⟨tx, hname, hstill, htx, hknows⟩ := prepare_record happlied hprepare
    obtain ⟨hname', happlied', hroutes⟩ := commit_ok (hstill ▸ happlied) htx hcommit
    rw [hroutes]
    exact ⟨hname'.trans hname, happlied', hknows⟩

/-! ### The verification of the reconciler -/

theorem verifyDevice_of_state {cfg : Reconcile.Config} {name : String} {plans : Map RoutePlan}
    {state : DeviceState} {W : Type} {h : Handler Reconcile.iface W}
    (hstate : ∀ v, (h (.state name) v).1 = .ok state) (hhealthy : state.healthy = true)
    (hid : state.appliedPlanID = planID)
    (hroutes : sortRoutes state.routes = sortRoutes (Reconcile.planOf plans name).routes) (v : W) :
    (Prog.run h (Reconcile.verifyDevice cfg planID plans name) v).1 = .ok () := by
  -- the first attempt is answered
  have hinvoke : (Prog.run h (Reconcile.invoke cfg (Reconcile.Ask.state name)) v).1 =
      .ok state := by
    unfold Reconcile.invoke
    cases cfg.retryCount with
    | zero => exact hstate v
    | succ retries =>
      unfold Reconcile.invokeAux
      rw [Prog.run_bind]
      have hanswer : (Prog.run h (Reconcile.Ask.state name) v).1 = .ok state := hstate v
      rw [hanswer]
      rfl
  unfold Reconcile.verifyDevice
  rw [Prog.run_bind, hinvoke]
  dsimp only
  rw [if_neg, if_neg (not_not.mpr hroutes)]
  · rfl
  · rintro (hill | hother)
    · cases hill.symm.trans hhealthy
    · exact hother hid

theorem nodup_share_of_valid {snapshot : TopologySnapshot} {now : Time}
    (hvalid : Validation.plan plan snapshot now = .ok ()) (name : String) :
    ((plan.share name).map sortKey).Nodup := by
  have hkeys := (Validation.plan_eq_ok_iff.mp hvalid).keys
  have hroutes : (plan.routes.map sortKey).Nodup := by
    -- routes that agree in all that is compared have one key, which the validation refuses
    refine List.Nodup.map_on (fun a ha b hb heq => ?_) (List.Nodup.of_map _ hkeys)
    refine inj_on_of_nodup_map hkeys ha hb ?_
    have hfields : (a.device, a.routePrefix, a.metric, a.nextHopNode) =
        (b.device, b.routePrefix, b.metric, b.nextHopNode) := heq
    obtain ⟨hdevice, hrest⟩ := Prod.mk.inj hfields
    obtain ⟨hdest, hrest⟩ := Prod.mk.inj hrest
    obtain ⟨hmetric, hnode⟩ := Prod.mk.inj hrest
    unfold Validation.routeKey
    rw [hdevice, hdest, hmetric, hnode]
  exact hroutes.sublist (filter_sublist.map sortKey)

/-- **A plan is read back if and only if its texts are canonical.** After `Prepare` and `Commit` of
the share of a valid plan, with a router that has stored the routes of the device and lists them:
`State` returns the id and the routes of the plan if and only if the texts of these routes are those
that the router prints, and the device did not have other routes under the id. Then the reconciler
accepts the device. -/
theorem state_reads_plan_back_iff {plan : RoutePlan} {snapshot : TopologySnapshot} {now : Time}
    (hvalid : Validation.plan plan snapshot now = .ok ()) {d committed : Device} {env : Env}
    {w : World} (hprepare : (d.prepare (plan.forDevice d.name)).1 = .ok ())
    (hcommit : ((d.prepare (plan.forDevice d.name)).2.commit env plan.id w).1 = none)
    (hcommitted : ((d.prepare (plan.forDevice d.name)).2.commit env plan.id w).2.1 = committed)
    {router : Router} (hstores : ∀ route ∈ committed.routes, router.Stores route)
    (senv : StateEnv) (hshows : router.Shows senv.shows) (file : Option PersistedState) :
    ((committed.state senv file).1 = .ok ⟨d.name, true, plan.id, sortRoutes (plan.share d.name)⟩ ↔
      (∀ route ∈ plan.share d.name, router.Canonical route) ∧ d.Knows plan.id (plan.share d.name)) ∧
    ((∀ route ∈ plan.share d.name, router.Canonical route) ∧ d.Knows plan.id (plan.share d.name) →
      ∀ (cfg : Reconcile.Config) (plans : Map RoutePlan) (W : Type) (h : Handler Reconcile.iface W),
        Reconcile.planOf plans d.name = plan.forDevice d.name →
        (∀ v, (h (.state d.name) v).1 = (committed.state senv file).1) →
        ∀ v, (Prog.run h (Reconcile.verifyDevice cfg plan.id plans d.name) v).1 = .ok ()) := by
  have hkeys := nodup_share_of_valid hvalid d.name
  have hid := (Validation.plan_eq_ok_iff.mp hvalid).id_ne
  obtain ⟨hname, happlied, hknows⟩ : committed.name = d.name ∧ committed.appliedPlanID = plan.id ∧
      (committed.routes.Perm (plan.share d.name) ↔ d.Knows plan.id (plan.share d.name)) := by
    subst hcommitted
    exact committed_record hprepare hcommit
  have hiff : (committed.state senv file).1 =
        .ok ⟨d.name, true, plan.id, sortRoutes (plan.share d.name)⟩ ↔
      (∀ route ∈ plan.share d.name, router.Canonical route) ∧
        d.Knows plan.id (plan.share d.name) := by
    rw [← hname] at hkeys hknows ⊢
    rw [state_eq_iff hshows hstores hid happlied hkeys]
    constructor
    · rintro ⟨hperm, hcanonical⟩
      exact ⟨fun route hroute => hcanonical route (hperm.mem_iff.mpr hroute), hknows.mp hperm⟩
    · rintro ⟨hcanonical, hd⟩
      have hperm := hknows.mpr hd
      exact ⟨hperm, fun route hroute => hcanonical route (hperm.mem_iff.mp hroute)⟩
  refine ⟨hiff, fun hholds cfg plans W h hplans hstate => ?_⟩
  refine verifyDevice_of_state (fun v => (hstate v).trans (hiff.mpr hholds)) rfl rfl ?_
  -- sorting twice changes nothing
  rw [hplans]
  exact sortRoutes_eq_of_perm hkeys (sortRoutes_perm _)

/-! ### A prefix with host bits -/

def toyTopology : TopologySnapshot where
  version := 1
  nodes := [{ id := "r1", loopback := "10.0.0.1", enabled := true },
    { id := "r2", loopback := "10.0.0.2", enabled := true }]
  links := [{ id := "l", source := "r1", target := "r2", adminUp := true, operationalUp := true
              latencyUS := 5, capacityBPS := 100 }]

def toyPlan (routePrefix : String) : RoutePlan where
  id := "p1"
  topologyVersion := 1
  expiresAt := 100
  routes := [{ device := "r1", routePrefix := routePrefix, nextHop := "10.0.0.2"
               nextHopNode := "r2", metric := 100, intentID := "i", pathRole := "primary" }]

def freshDevice : Device where
  name := "r1"

def committedDevice (routePrefix : String) : Device :=
  ((freshDevice.prepare ((toyPlan routePrefix).forDevice "r1")).2.commit {} "p1"
    { config := fun _ => false }).2.1

def decimalAddr : Addr → String
  | .v4 octets => dotted octets
  | .v6 _ _ => ""

def decimalPrefix : Addr × ℕ → String
  | (.v4 octets, bits) => dotted octets ++ "/" ++ toString bits
  | (.v6 _ _, _) => ""

def tenRoute : StaticRoute :=
  ⟨(.v4 [10, 1, 0, 0], 16), .v4 [10, 0, 0, 2]⟩

def tenRouter : Router where
  routes := [tenRoute]
  prefixText := decimalPrefix
  addrText := decimalAddr
  dest_masked := forall_mem_singleton.mpr rfl
  parse_prefixText := forall_mem_singleton.mpr (by decide +kernel)
  parse_addrText := forall_mem_singleton.mpr (by decide +kernel)

def tenShows (ipv6 : Bool) : Output :=
  .table (if ipv6 then ∅ else AList.insert "10.1.0.0/16" [⟨["10.0.0.2"]⟩] ∅)

theorem tenRouter_shows : tenRouter.Shows tenShows := by
  intro ipv6
  refine ⟨_, rfl, fun routePrefix nextHop => ?_⟩
  have hlisted : (∃ r ∈ tenRouter.routes, r.dest.1.is6 = ipv6 ∧
      tenRouter.prefixText r.dest = routePrefix ∧ tenRouter.addrText r.nextHop = nextHop) ↔
      false = ipv6 ∧ "10.1.0.0/16" = routePrefix ∧ "10.0.0.2" = nextHop := by
    have hdest : tenRouter.prefixText (.v4 [10, 1, 0, 0], 16) = "10.1.0.0/16" := by decide +kernel
    have hnextHop : tenRouter.addrText (.v4 [10, 0, 0, 2]) = "10.0.0.2" := by decide +kernel
    have hroutes : tenRouter.routes = [⟨(.v4 [10, 1, 0, 0], 16), .v4 [10, 0, 0, 2]⟩] := rfl
    rw [hroutes]
    simp only [mem_singleton, exists_eq_left, hdest, hnextHop]
    rfl
  rw [hlisted]
  unfold decodeInstalled
  cases ipv6 with
  | true => simp
  | false =>
    by_cases hdest : routePrefix = "10.1.0.0/16"
    · subst hdest
      rw [if_neg nofun, AList.lookup_insert]
      simp only [Option.getD_some, any_cons, any_nil, Bool.or_false, true_and]
      simp only [contains_eq_mem, mem_singleton, decide_eq_true_eq]
      exact eq_comm
    · rw [if_neg nofun, AList.lookup_insert_ne hdest]
      simp [Ne.symm hdest]

theorem tenRouter_stores {routePrefix : String} {dest : Addr × ℕ}
    (hparse : parsePrefix routePrefix = .ok dest) (hmasked : masked dest = (.v4 [10, 1, 0, 0], 16))
    (hroutes : (committedDevice routePrefix).routes = (toyPlan routePrefix).routes) :
    ∀ route ∈ (committedDevice routePrefix).routes, tenRouter.Stores route := by
  intro route hroute
  rw [hroutes] at hroute
  cases mem_singleton.mp hroute
  have hnextHop : parseAddr "10.0.0.2" = .ok (.v4 [10, 0, 0, 2]) := by decide +kernel
  exact ⟨_, mem_singleton_self _, ⟨dest, hparse, hmasked⟩, hnextHop⟩

theorem state_reads_canonical_back :
    ((committedDevice "10.1.0.0/16").state { shows := tenShows } none).1 =
      .ok ⟨"r1", true, "p1", (toyPlan "10.1.0.0/16").routes⟩ := by
  have hvalid : Validation.plan (toyPlan "10.1.0.0/16") toyTopology 10 = .ok () := by
    decide +kernel
  have hprepare : (freshDevice.prepare ((toyPlan "10.1.0.0/16").forDevice "r1")).1 = .ok () := by
    decide +kernel
  have hcommit : ((freshDevice.prepare ((toyPlan "10.1.0.0/16").forDevice "r1")).2.commit {} "p1"
      { config := fun _ => false }).1 = none := by decide +kernel
  have hparse : parsePrefix "10.1.0.0/16" = .ok (.v4 [10, 1, 0, 0], 16) := by decide +kernel
  have hnextHop : parseAddr "10.0.0.2" = .ok (.v4 [10, 0, 0, 2]) := by decide +kernel
  have hstate := (state_reads_plan_back_iff hvalid hprepare hcommit rfl
    (tenRouter_stores hparse (by decide) (by decide +kernel)) { shows := tenShows }
    tenRouter_shows none).1.mpr
  refine hstate ⟨fun route hroute => ?_, fun happlied => ?_, nofun⟩
  · cases mem_singleton.mp (mem_of_mem_filter hroute)
    exact ⟨⟨_, hparse, by decide +kernel⟩, _, hnextHop, by decide +kernel⟩
  · exact absurd happlied (by decide)

/-- With host bits in the prefix the plan is accepted and committed, the router has the route and
lists it, and `State` does not recognise it: no route is reported, and no plan. -/
theorem host_bits_not_recognised :
    Validation.plan (toyPlan "10.1.0.1/16") toyTopology 10 = .ok () ∧
      (freshDevice.prepare ((toyPlan "10.1.0.1/16").forDevice "r1")).1 = .ok () ∧
      ((freshDevice.prepare ((toyPlan "10.1.0.1/16").forDevice "r1")).2.commit {} "p1"
        { config := fun _ => false }).1 = none ∧
      (∀ route ∈ (committedDevice "10.1.0.1/16").routes, tenRouter.Stores route) ∧
      tenRouter.Shows tenShows ∧
      ((committedDevice "10.1.0.1/16").state { shows := tenShows } none).1 =
        .ok ⟨"r1", true, "", []⟩ := by
  have hparse : parsePrefix "10.1.0.1/16" = .ok (.v4 [10, 1, 0, 1], 16) := by decide +kernel
  refine ⟨by decide +kernel, by decide +kernel, by decide +kernel, ?_, tenRouter_shows,
    by decide +kernel⟩
  exact tenRouter_stores hparse (by decide) (by decide +kernel)

end StarFabric.Frr

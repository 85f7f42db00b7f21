import StarFabric.Planner.Forwarding
import StarFabric.Reconcile.Outage

/-!
# What the forwarding probe accepts

At every device the probe follows one route of the lowest metric for the prefix. Where the devices
have one next hop at that metric its verdict is exact, and the hop limit refuses no walk that is
right (`verify_eq_ok_iff`). Of several next hops it sees the one that the sort puts first
(`unseen_next_hop`).
-/

namespace StarFabric.Verification

open Adapter Go EffectProgram ExceptFold HopByHop List Planner Reconcile

/-- What the probe reads of a device: its health and its routes. -/
abbrev Tables := String → Option (Bool × List RouteOperation)

def report (state : DeviceState) : Bool × List RouteOperation := (state.healthy, state.routes)

def Tables.routes (tables : Tables) (name : String) : List RouteOperation :=
  ((tables name).map Prod.snd).getD []

/-- All routes of the lowest metric for the prefix on one device have one next hop. -/
def Tables.Single (tables : Tables) (destinationPrefix : String) : Prop :=
  ∀ v w w', Hop tables.routes destinationPrefix v w → Hop tables.routes destinationPrefix v w' →
    w = w'

def Passes (snapshot : TopologySnapshot) (now : Time) (tables : Tables) (v w : String) : Prop :=
  (∃ routes, tables v = some (true, routes)) ∧ Crosses snapshot now 0 v w

/-- Links leave from nodes of the snapshot, and the names of their ends can be told apart in a
key. -/
structure Named (snapshot : TopologySnapshot) : Prop where
  source_mem : ∀ link ∈ snapshot.links, link.source ∈ snapshot.nodes.map Node.id
  nul : ∀ link ∈ snapshot.links, '\x00' ∉ link.source.toList ∧ '\x00' ∉ link.target.toList

variable {snapshot : TopologySnapshot} {now : Time} {sort : SortSlice byMetric}

theorem Named.mem_usableEdges (h : Named snapshot) {v w : String} :
    edgeKey v w ∈ Validation.usableEdges snapshot now ↔ Crosses snapshot now 0 v w := by
  unfold Validation.usableEdges Crosses
  simp only [mem_map, mem_filter, and_assoc]
  refine exists_congr fun link => and_congr_right fun hlink => ?_
  have hkey : edgeKey link.source link.target = edgeKey v w ↔
      link.source = v ∧ link.target = w := by
    obtain ⟨hsource, htarget⟩ := h.nul link hlink
    rw [← String.toList_inj, ← String.toList_inj, ← String.toList_inj]
    have hsplit := @append_cons_inj_of_notMem _ _ v.toList _ w.toList '\x00' _ hsource htarget
    simpa [edgeKey] using hsplit
  rw [hkey, and_comm, and_assoc]

section Walk

variable {states : States} {intent : RouteIntent} {v w : String} {visited : List String}
  {rounds : ℕ} {tables : Tables}
  (hnamed : Named snapshot) (htables : ∀ name, tables name = (states.lookup name).map report)
  (hsingle : tables.Single intent.destinationPrefix)

include hnamed htables hsingle

theorem nextHop_eq_ok_iff :
    nextHop sort (Validation.usableEdges snapshot now) states intent v = .ok w ↔
      Hop tables.routes intent.destinationPrefix v w ∧ Passes snapshot now tables v w := by
  have hv := htables v
  unfold nextHop
  cases hstate : states.lookup v with
  | none =>
    rw [hstate] at hv
    refine iff_of_false nofun fun ⟨_, ⟨routes, hroutes⟩, _⟩ => ?_
    cases hroutes.symm.trans hv
  | some state =>
    rw [hstate] at hv
    dsimp only
    split_ifs with hhealthy
    · refine iff_of_false nofun fun ⟨_, ⟨routes, htrue⟩, _⟩ => ?_
      have heq : (true, routes) = report state := Option.some.inj (htrue.symm.trans hv)
      cases (congrArg Prod.fst heq).trans hhealthy
    have hup : tables v = some (true, state.routes) := by
      rw [hv, ← eq_true_of_ne_false hhealthy]
      rfl
    generalize hcandidates : state.routes.filter (fun route =>
      route.routePrefix = intent.destinationPrefix) = candidates
    have hmem : ∀ route, route ∈ sort.sort candidates ↔
        route ∈ tables.routes v ∧ route.routePrefix = intent.destinationPrefix := by
      simp [(sort.perm _).mem_iff, ← hcandidates, Tables.routes, hup]
    have hsorted := sort.sorted candidates
    cases hsort : sort.sort candidates with
    | nil =>
      refine iff_of_false nofun fun ⟨⟨route, hroute, hto, _⟩, _⟩ => ?_
      exact not_mem_nil (hsort ▸ (hmem route).mpr ⟨hroute, hto⟩)
    | cons candidate rest =>
      rw [hsort] at hmem hsorted
      have hbest : Hop tables.routes intent.destinationPrefix v candidate.nextHopNode := by
        obtain ⟨hin, hto⟩ := (hmem candidate).mp mem_cons_self
        refine ⟨candidate, hin, hto, rfl, fun other hother hother' => ?_⟩
        rcases mem_cons.mp ((hmem other).mpr ⟨hother, hother'⟩) with rfl | hrest
        · exact le_rfl
        · exact (byMetric_by.eq_false_iff _ _).mp (rel_of_pairwise_cons hsorted hrest)
      dsimp only
      split_ifs with hedge
      · have hcross := hnamed.mem_usableEdges.mp hedge
        constructor
        · rintro ⟨⟩
          exact ⟨hbest, ⟨_, hup⟩, hcross⟩
        · rintro ⟨hhop, -⟩
          rw [hsingle v w _ hhop hbest]
      · refine iff_of_false nofun fun ⟨hhop, hpass⟩ => hedge (hnamed.mem_usableEdges.mpr ?_)
        exact hsingle v w _ hhop hbest ▸ hpass.2

theorem arrives_of_walk (hdst : intent.destination ∉ visited)
    (h : walk sort (Validation.usableEdges snapshot now) states intent rounds visited v = .ok ()) :
    v ∉ visited ∧ Arrives (Hop tables.routes intent.destinationPrefix)
      (Passes snapshot now tables) intent.destination visited v := by
  induction rounds generalizing visited v with
  | zero =>
    unfold walk at h
    split_ifs at h with hv
    obtain rfl := not_not.mp hv
    exact ⟨hdst, .here⟩
  | succ rounds ih =>
    unfold walk at h
    split_ifs at h with hv hvisited
    · subst hv
      exact ⟨hdst, .here⟩
    · cases hnext : nextHop sort (Validation.usableEdges snapshot now) states intent v with
      | error e =>
        rw [hnext] at h
        cases h
      | ok next =>
        rw [hnext] at h
        obtain ⟨hhop, hpass⟩ := (nextHop_eq_ok_iff hnamed htables hsingle).mp hnext
        have hdst' : intent.destination ∉ v :: visited :=
          not_mem_cons_of_ne_of_not_mem (Ne.symm hv) hdst
        obtain ⟨hnew, harrives⟩ := ih hdst' h
        -- whatever hop is taken, it is the one that the probe took
        have honly : ∀ w, Hop tables.routes intent.destinationPrefix v w → w = next :=
          fun w hw => hsingle v w next hw hhop
        refine ⟨hvisited, .forward ⟨next, hhop⟩ (fun w hw => ?_) (fun w hw => ?_) fun w hw => ?_⟩
        · exact honly w hw ▸ hpass
        · exact honly w hw ▸ hnew
        · exact honly w hw ▸ harrives

/-- A walk that is right has visited different nodes of the snapshot, so there is a round left. -/
theorem walk_of_arrives (h : Arrives (Hop tables.routes intent.destinationPrefix)
      (Passes snapshot now tables) intent.destination visited v) (hv : v ∉ visited)
    (hnodup : visited.Nodup) (hsubset : visited ⊆ snapshot.nodes.map Node.id)
    (hrounds : snapshot.nodes.length + 1 ≤ rounds + visited.length) :
    walk sort (Validation.usableEdges snapshot now) states intent rounds visited v = .ok () := by
  induction h generalizing rounds with
  | here =>
    cases rounds with
    | zero => exact if_neg (not_not.mpr rfl)
    | succ rounds => exact if_pos rfl
  | @forward visited v hexists hpass hnew _ ih =>
    obtain ⟨next, hhop⟩ := hexists
    obtain ⟨link, hlink, rfl, -, -⟩ := (hpass next hhop).2
    have hnodup' : (link.source :: visited).Nodup := nodup_cons.mpr ⟨hv, hnodup⟩
    have hsubset' := cons_subset.mpr ⟨hnamed.source_mem link hlink, hsubset⟩
    have hlength := (subperm_of_subset hnodup' hsubset').length_le
    rw [length_cons, length_map] at hlength
    obtain ⟨rounds, rfl⟩ : ∃ k, rounds = k + 1 := ⟨rounds - 1, by omega⟩
    unfold walk
    by_cases hdst : link.source = intent.destination
    · exact if_pos hdst
    rw [if_neg hdst, if_neg hv,
      (nextHop_eq_ok_iff hnamed htables hsingle).mpr ⟨hhop, hpass next hhop⟩]
    refine ih next hhop (hnew next hhop) hnodup' hsubset' ?_
    rw [length_cons]
    omega

end Walk

/-- What the devices of a world report when all of them are up. -/
def tablesOf (w : World) : Tables := fun name => (w.ledger name).map fun l => (true, l.routes)

theorem state_calm (name : String) (w : World) :
    (handle pairConfig calm (.state name) w).1.toOption.map report = tablesOf w name := by
  show ((World.onDevice { w with tick := w.tick + 1 } (calm w.tick) name
    fun d => (d.state, d)).1).toOption.map report = ((w.devices.get name).map _).map _
  unfold World.onDevice
  cases w.devices.get name <;> rfl

def astray : RouteOperation := { routeA with nextHopNode := "x" }

/-- Router `a` has two routes of one metric. -/
def tied : World :=
  ⟨0, Registry.new [{ MemoryDevice.new "a" with routes := [routeA, astray] }], none⟩

def intentA : RouteIntent where
  id := "i"
  source := "a"
  destination := "b"
  destinationPrefix := "10.1.0.0/16"

end StarFabric.Verification

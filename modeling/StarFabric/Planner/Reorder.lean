import StarFabric.Planner.Priority
import StarFabric.Policy.Reorder

/-!
# The order of the planner's input

`Build` puts the intents into an order of their own, and its searches do not depend on the order of
nodes and links. Two builds on reordered input therefore go through the same rounds, and their
copies of the topology stay reorderings of each other (`Draft.Alike`).
-/

namespace StarFabric.Planner

open Go Policy List

/-- The variables of two builds on reordered snapshots. -/
structure Draft.Alike (draft draft' : Draft) : Prop where
  plan : draft.plan = draft'.plan
  reservations : draft.reservations = draft'.reservations
  residual : draft.residual.Reordered draft'.residual

section Reserve

def relieve (demand : Int64) (linkID : String) (link : Link) : Link :=
  if link.id = linkID then { link with capacityBPS := link.capacityBPS - demand } else link

theorem relieve_id (demand : Int64) (linkID : String) (link : Link) :
    (relieve demand linkID link).id = link.id := by
  unfold relieve
  split_ifs <;> rfl

theorem reserveLink_eq {demand : Int64} {links : List Link} {reservations : Map Int64}
    (hnodup : (links.map Link.id).Nodup) (linkID : String) :
    reserveLink demand (links, reservations) linkID =
      (links.map (relieve demand linkID),
        if linkID ∈ links.map Link.id then
          reservations.insert linkID (reserved reservations linkID + demand)
        else reservations) := by
  unfold reserveLink
  cases hidx : links.findIdx? fun link => link.id = linkID with
  | none =>
    rw [findIdx?_eq_none_iff] at hidx
    have hne : ∀ link ∈ links, link.id ≠ linkID := fun link hlink => by simpa using hidx link hlink
    rw [if_neg fun hmem => ?_]
    · refine Prod.ext ?_ rfl
      refine (map_id links).symm.trans (map_congr_left fun link hlink => ?_)
      exact (if_neg (hne link hlink)).symm
    · obtain ⟨link, hlink, hid⟩ := mem_map.mp hmem
      exact hne link hlink hid
  | some i =>
    have hmem : linkID ∈ links.map Link.id := by
      obtain ⟨hi, hid, -⟩ := findIdx?_eq_some_iff_getElem.mp hidx
      exact mem_map.mpr ⟨_, getElem_mem hi, by simpa using hid⟩
    rw [if_pos hmem]
    exact Prod.ext (Keyed.modify_eq_map hnodup hidx) rfl

/-- Links in another order, with distinct ids, and the same bookings. -/
structure SameLinks (s t : List Link × Map Int64) : Prop where
  links : s.1.Perm t.1
  nodup : (t.1.map Link.id).Nodup
  bookings : s.2 = t.2

theorem SameLinks.reserveLink {s t : List Link × Map Int64} (h : SameLinks s t) (demand : Int64)
    (linkID : String) : SameLinks (reserveLink demand s linkID) (reserveLink demand t linkID) := by
  obtain ⟨links, reservations⟩ := s
  obtain ⟨links', reservations'⟩ := t
  obtain ⟨hperm, hnodup, hbookings⟩ := h
  cases hbookings
  have hids : (links.map Link.id).Perm (links'.map Link.id) := hperm.map _
  rw [reserveLink_eq (hids.nodup_iff.mpr hnodup), reserveLink_eq hnodup]
  refine ⟨hperm.map _, ?_, ?_⟩
  · rw [map_map]
    exact (map_congr_left fun link _ => relieve_id demand linkID link) ▸ hnodup
  · simp only [hids.mem_iff]

theorem SameLinks.reserve {s t : List Link × Map Int64} (h : SameLinks s t) (intent : RouteIntent)
    (primary : Path) : SameLinks (reserve intent primary s) (reserve intent primary t) := by
  unfold Planner.reserve
  split_ifs
  · induction primary.links generalizing s t with
    | nil => exact h
    | cons id ids ih => exact ih (h.reserveLink intent.demandBPS id)
  · exact h

end Reserve

section Rounds

variable {p : Planner} {clock now : Time} {a b : TopologySnapshot}

theorem selectDestination_of_reordered (hp : p.policies.OrderFree) (h : a.Reordered b)
    (intent : RouteIntent) :
    selectDestination p clock a intent now = selectDestination p clock b intent now := by
  have hconsider : consider p clock a intent now = consider p clock b intent now := by
    funext s destination
    unfold consider
    rw [hp.compute clock intent.policy _ h (Options.Alike.refl _)]
  unfold selectDestination
  rw [hconsider]

theorem backups_of_reordered {engine : PathPolicy} (he : engine.OrderFree) (h : a.Reordered b)
    (intent : RouteIntent) {options options' : Options} (ho : options.Alike options')
    (count index : ℕ) (previous : Path) :
    backups p engine clock a intent count index previous options =
      backups p engine clock b intent count index previous options' := by
  induction count generalizing index previous options options' with
  | zero => rfl
  | succ count ih =>
    have hround := disjointWithPolicy_of_reordered he clock intent h ho previous p.nodeDisjoint
    unfold backups
    generalize disjointWithPolicy engine clock a intent previous p.nodeDisjoint options = x
      at hround ⊢
    generalize disjointWithPolicy engine clock b intent previous p.nodeDisjoint options' = y
      at hround ⊢
    cases hround with
    | error e => rfl
    | @ok x y hxy =>
      obtain ⟨backup, options⟩ := x
      obtain ⟨backup', options'⟩ := y
      obtain ⟨hbackup, ho⟩ := hxy
      cases hbackup
      change (backups p engine clock a intent count (index + 1) backup options >>= _) =
        (backups p engine clock b intent count (index + 1) backup options' >>= _)
      rw [ih ho]

theorem computeBackups_of_reordered (hp : p.policies.OrderFree) (h : a.Reordered b)
    (intent : RouteIntent) (primary : Path) :
    computeBackups p clock a intent primary now = computeBackups p clock b intent primary now := by
  unfold computeBackups
  split_ifs
  · cases hengine : p.policies.policy intent.policy with
    | none => rfl
    | some engine =>
      exact backups_of_reordered (hp _ engine hengine) h intent (Options.Alike.refl _) _ _ _
  · rfl

theorem intentRoutes_of_reordered (h : a.Reordered b) (intent : RouteIntent) (primary : Path)
    (paths : List Path) :
    intentRoutes a.nodeMap intent primary paths = intentRoutes b.nodeMap intent primary paths := by
  have hhop : hopRoute a.nodeMap = hopRoute b.nodeMap := by
    funext intent role hop
    unfold hopRoute
    rw [nodeMap_lookup_of_reordered h, nodeMap_lookup_of_reordered h]
  have hpath : pathRoutes a.nodeMap = pathRoutes b.nodeMap := by
    funext intent primary entry
    unfold pathRoutes
    rw [hhop]
  unfold intentRoutes
  rw [hpath]

theorem lowerPaths_of_reordered (h : a.Reordered b) (expiresAt : Time) (paths : List Path) :
    lowerPaths a.linkMap expiresAt paths = lowerPaths b.linkMap expiresAt paths := by
  have hlink : lowerLink a.linkMap = lowerLink b.linkMap := by
    funext expiresAt linkID
    unfold lowerLink TopologySnapshot.linkMap
    rw [lookup_mapBy_of_perm h.link_nodup h.links]
  unfold lowerPaths
  rw [hlink]

theorem Draft.Alike.commit {draft draft' : Draft} (hdraft : draft.Alike draft')
    (h : a.Reordered b) (intent : RouteIntent) (primary : Path) (backups : List Path)
    (routes : List RouteOperation) :
    (draft.commit a intent primary backups routes).Alike
      (draft'.commit b intent primary backups routes) := by
  have hreserve : SameLinks (reserve intent primary (draft.residual.links, draft.reservations))
      (reserve intent primary (draft'.residual.links, draft'.reservations)) :=
    SameLinks.reserve ⟨hdraft.residual.links, hdraft.residual.link_nodup, hdraft.reservations⟩
      intent primary
  refine ⟨?_, hreserve.bookings, hdraft.residual.nodes, hreserve.links, hdraft.residual.node_nodup,
    hreserve.nodup⟩
  unfold Draft.commit
  rw [lowerPaths_of_reordered h, hdraft.plan]

theorem planIntent_of_reordered (hp : p.policies.OrderFree) (h : a.Reordered b)
    {draft draft' : Draft} (hdraft : draft.Alike draft') (intent : RouteIntent) :
    ExceptFold.Related Draft.Alike (planIntent p clock a now draft intent)
      (planIntent p clock b now draft' intent) := by
  unfold planIntent
  simp only [selectDestination_of_reordered hp hdraft.residual,
    computeBackups_of_reordered hp hdraft.residual, intentRoutes_of_reordered h]
  refine .bind_left _ fun _ => .bind_left _ fun _ => .bind_left _ fun selected => ?_
  refine .bind_left _ fun backups => .bind_left _ fun routes => ?_
  exact .ok (hdraft.commit h selected.1 selected.2 backups routes)

end Rounds

section Build

theorem orderIntents_of_perm {intents intents' : List RouteIntent}
    (hids : (intents.map RouteIntent.id).Nodup) (hperm : intents'.Perm intents) :
    orderIntents intents' = orderIntents intents := by
  refine (intentLess_by.rearranged id List.Perm.refl).eq_of_perm
    (intentLess_by.distinguishes ?_) hperm
  intro x hx y hy hrank
  have hid : x.id = y.id := congrArg (fun k => (ofLex k).2) hrank
  exact inj_on_of_nodup_map hids hx hy hid

/-- **Plans do not depend on the order of the input.** With the built-in policies, a build on a valid
snapshot with its nodes and links in another order, for intents with distinct ids in another
order, ends with the same plan or with the same error. -/
theorem build_of_perm {digest : Payload → String} {p : Planner} {clock now : Time}
    {snapshot : TopologySnapshot} {intents intents' : List RouteIntent} {nodes : List Node}
    {links : List Link} (hp : p.policies = Registry.new []) (hvalid : snapshot.Valid)
    (hids : (intents.map RouteIntent.id).Nodup) (hnodes : nodes.Perm snapshot.nodes)
    (hlinks : links.Perm snapshot.links) (hintents : intents'.Perm intents) :
    build digest p clock { snapshot with nodes := nodes, links := links } intents' now =
      build digest p clock snapshot intents now := by
  have hfree : p.policies.OrderFree := hp ▸ Registry.base_orderFree
  have hsnapshot : { snapshot with nodes := nodes, links := links : TopologySnapshot }.Reordered
      snapshot := ⟨hnodes, hlinks, hvalid.node_nodup, hvalid.link_nodup⟩
  have hvalidate : { snapshot with nodes := nodes, links := links : TopologySnapshot }.validate =
      snapshot.validate := by
    rw [TopologySnapshot.validate_eq_ok_iff.mpr hvalid]
    exact TopologySnapshot.validate_eq_ok_iff.mpr (hvalid.reorder hnodes hlinks)
  have hstart : (startDraft p { snapshot with nodes := nodes, links := links }
      (buildTime clock now)).Alike (startDraft p snapshot (buildTime clock now)) :=
    ⟨rfl, rfl, hsnapshot⟩
  have hloop : ExceptFold.Related Draft.Alike
      ((orderIntents intents).foldlM (planIntent p clock
        { snapshot with nodes := nodes, links := links } (buildTime clock now)) _)
      ((orderIntents intents).foldlM (planIntent p clock snapshot (buildTime clock now)) _) :=
    ExceptFold.Related.foldlM (fun _ _ intent h => planIntent_of_reordered hfree hsnapshot h intent)
      (orderIntents intents) hstart
  unfold build
  rw [hvalidate, orderIntents_of_perm hids hintents]
  refine congrArg _ (funext fun _ => ?_)
  dsimp only
  split_ifs
  · rfl
  · generalize (orderIntents intents).foldlM (planIntent p clock
      { snapshot with nodes := nodes, links := links } (buildTime clock now)) _ = x at hloop ⊢
    generalize (orderIntents intents).foldlM (planIntent p clock snapshot (buildTime clock now)) _ =
      y at hloop ⊢
    cases hloop with
    | error e => rfl
    | @ok draft draft' hdraft =>
      have hfinish : draft.finish { snapshot with nodes := nodes, links := links } =
          draft'.finish snapshot := by
        unfold Draft.finish
        rw [hdraft.plan, hdraft.reservations]
      change (if _ then _ else _) = (if _ then _ else _)
      rw [hfinish]

theorem build_of_perm_diamond :
    build (fun _ => "0") (new {}) 0
        { diamond with nodes := diamond.nodes.reverse, links := diamond.links.reverse }
        [idle "j", urgent] 1 = priorityBuild [urgent, idle "j"] ∧
      (priorityBuild [urgent, idle "j"]).toOption.isSome = true := by
  have hvalid : diamond.Valid := TopologySnapshot.validate_eq_ok_iff.mp (by decide +kernel)
  refine ⟨?_, by decide +kernel⟩
  exact build_of_perm rfl hvalid (by decide) (reverse_perm _) (reverse_perm _)
    (List.Perm.swap _ _ _)

end Build

end StarFabric.Planner

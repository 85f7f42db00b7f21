import StarFabric.Lib.Fold
import StarFabric.Model.RouteOrder
import Mathlib.Data.List.Dedup

/-!
# Forwarding entries of the gRIBI adapter

`internal/adapter/openconfig/gribi.go`: how a set of routes becomes entries of an abstract
forwarding table. The IP entry of a prefix points to a next-hop group for each role, and the primary
group has the backup one as its backup. The hash functions and the order in which `sort.Slice`
leaves equal routes are from outside (`Library`).
-/

namespace StarFabric.Gribi

open Go ExceptFold List

/-- The functions from outside: the first eight bytes of the SHA-256 digest of a text, the token of
a group of routes (the first eight bytes of the digest of its JSON text), and `sort.Slice` with the
less-than function of `SortRoutes`. -/
structure Library where
  digest : String → UInt64
  routeToken : List RouteOperation → UInt64
  sortRoutes : SortSlice routeLess

def stableID (lib : Library) (parts : List String) : UInt64 :=
  let value := lib.digest ("\x00".intercalate parts) &&& 0x7fffffffffffffff
  if value = 0 then 1 else value

/-! ### Entries -/

/-- The kinds of entries, in the order of the constants. -/
inductive Kind where
  | nextHop
  | nextHopGroup
  | ip
  deriving DecidableEq, Repr

def Kind.toNat : Kind → ℕ
  | nextHop => 1
  | nextHopGroup => 2
  | ip => 3

/-- An entry of the forwarding table. The weight of a next hop in a group is always 1. -/
inductive Entry where
  | nextHop (index : UInt64) (address : String)
  | group (id : UInt64) (nextHops : List UInt64) (backup : Option UInt64)
  | ip (v4 : Bool) (routePrefix : String) (group : UInt64) (metadata : UInt64)
  deriving DecidableEq, Repr

def nextHopKey (index : UInt64) : String := "nh/" ++ toString index

def groupKey (id : UInt64) : String := "nhg/" ++ toString id

def ipKey (v4 : Bool) (routePrefix : String) : String :=
  (if v4 then "ipv4/" else "ipv6/") ++ routePrefix

namespace Entry

/-- The key of an entry, as built and as `aftEntry` reads it back. -/
def key : Entry → String
  | nextHop index _ => nextHopKey index
  | group id _ _ => groupKey id
  | ip v4 routePrefix _ _ => ipKey v4 routePrefix

def kind : Entry → Kind
  | nextHop _ _ => .nextHop
  | group _ _ _ => .nextHopGroup
  | ip _ _ _ _ => .ip

def less (a b : Entry) : Bool :=
  if a.kind ≠ b.kind then a.kind.toNat < b.kind.toNat else a.key < b.key

end Entry

/-! ### From routes to entries -/

inductive Role where
  | primary
  | backup
  deriving DecidableEq, Repr

def Role.text : Role → String
  | primary => "primary"
  | backup => "backup"

def roleOf (route : RouteOperation) : Role :=
  if route.pathRole = "backup" then .backup else .primary

/-- The routes to a prefix, in the order of `SortRoutes`. -/
def routeGroup (lib : Library) (routes : List RouteOperation) (routePrefix : String) :
    List RouteOperation :=
  lib.sortRoutes.sort (routes.filter fun route => route.routePrefix = routePrefix)

def prefixes (routes : List RouteOperation) : List String :=
  sortStrings (routes.map RouteOperation.routePrefix).dedup

def checkRoute (route : RouteOperation) : Except String Unit :=
  if route.routePrefix = "" ∨ route.nextHop = "" then
    .error "gRIBI route prefix and next-hop are required"
  else match parsePrefix route.routePrefix with
    | .error e => .error ("gRIBI prefix " ++ quote route.routePrefix ++ ": " ++ e)
    | .ok _ =>
      match parseAddr route.nextHop with
      | .error e => .error ("gRIBI next-hop " ++ quote route.nextHop ++ ": " ++ e)
      | .ok _ => .ok ()

def isIPv4 (routePrefix : String) : Bool :=
  match parsePrefix routePrefix with
  | .ok (addr, _) => !addr.is6
  | .error _ => false

section Build

variable (lib : Library) (networkInstance : String)

def nextHopID (address : String) : UInt64 := stableID lib ["nh", networkInstance, address]

def groupID (routePrefix : String) (role : Role) : UInt64 :=
  stableID lib ["nhg", networkInstance, routePrefix, role.text]

/-- The next hops of a group, each the first time that its identifier is seen. -/
def nextHopEntries : List UInt64 → List RouteOperation → List Entry
  | _, [] => []
  | seen, route :: rest =>
    let index := nextHopID lib networkInstance route.nextHop
    -- the group lists the next hop again, but there is one entry for it
    if index ∈ seen then nextHopEntries seen rest
    else .nextHop index route.nextHop :: nextHopEntries (index :: seen) rest

/-- The group of a role, or `0` when the role has no routes. -/
def roleGroupID (group : List RouteOperation) (routePrefix : String) (role : Role) : UInt64 :=
  if group.filter (fun route => roleOf route = role) = [] then 0
  else groupID lib networkInstance routePrefix role

def roleEntries (group : List RouteOperation) (routePrefix : String) (role : Role) : List Entry :=
  let roleRoutes := group.filter fun route => roleOf route = role
  let backupID := roleGroupID lib networkInstance group routePrefix .backup
  -- the group of the backup role is built first, so the primary one can name it
  if roleRoutes = [] then []
  else nextHopEntries lib networkInstance [] roleRoutes ++
    [.group (groupID lib networkInstance routePrefix role)
      (roleRoutes.map fun route => nextHopID lib networkInstance route.nextHop)
      (if role = .primary ∧ backupID ≠ 0 then some backupID else none)]

def prefixEntries (routes : List RouteOperation) (routePrefix : String) : List Entry :=
  -- `routeGroups` has sorted the group before
  let group := lib.sortRoutes.sort (routeGroup lib routes routePrefix)
  let primaryID := roleGroupID lib networkInstance group routePrefix .primary
  let backupID := roleGroupID lib networkInstance group routePrefix .backup
  roleEntries lib networkInstance group routePrefix .backup ++
    roleEntries lib networkInstance group routePrefix .primary ++
    [.ip (isIPv4 routePrefix) routePrefix (if primaryID = 0 then backupID else primaryID)
      (lib.routeToken group)]

/-- `deduplicateEntries`: the last entry of each key. -/
def deduplicateEntries (input : List Entry) : List Entry :=
  ((mapBy Entry.key input).entries.map Sigma.snd).insertionSort fun a b => Entry.less b a = false

/-- The entries of all prefixes, before `deduplicateEntries`. -/
def rawEntries (routes : List RouteOperation) : List Entry :=
  (prefixes routes).flatMap (prefixEntries lib networkInstance routes)

def entriesForRoutes (routes : List RouteOperation) : Except String (List Entry) :=
  match routes.forM checkRoute with
  | .error e => .error e
  | .ok _ =>
    .ok (deduplicateEntries (rawEntries lib networkInstance routes))

end Build

variable {routes : List RouteOperation}

theorem entriesForRoutes_eq_ok_iff {lib : Library} {networkInstance : String}
    {entries : List Entry} :
    entriesForRoutes lib networkInstance routes = .ok entries ↔
      (∀ route ∈ routes, checkRoute route = .ok ()) ∧
        entries = deduplicateEntries (rawEntries lib networkInstance routes) := by
  unfold entriesForRoutes
  rw [← forM_eq_ok_iff]
  cases routes.forM checkRoute with
  | error e => exact iff_of_false nofun fun h => nomatch h.1
  | ok _ =>
    constructor
    · intro h
      exact ⟨rfl, (Except.ok.inj h).symm⟩
    · rintro ⟨-, rfl⟩
      rfl

/-! ### One entry for each key -/

def table (entries : List Entry) (k : String) : Option Entry := (mapBy Entry.key entries).lookup k

section Deduplicate

variable {input entries : List Entry} {e : Entry} {k : String}

theorem mem_deduplicateEntries : e ∈ deduplicateEntries input ↔ table input e.key = some e := by
  unfold deduplicateEntries table
  rw [(perm_insertionSort _ _).mem_iff, mem_map]
  constructor
  · -- an entry of the map is stored under its own key
    rintro ⟨⟨k, e'⟩, hmem, rfl⟩
    have hlookup : (mapBy Entry.key input).lookup k = some e' := AList.mem_lookup_iff.mpr hmem
    have hkey : e'.key = k := (mem_of_lookup_mapBy hlookup).2
    rw [hkey]
    exact hlookup
  · intro hlookup
    exact ⟨⟨e.key, e⟩, AList.mem_lookup_iff.mp hlookup, rfl⟩

theorem nodup_keys_deduplicateEntries : ((deduplicateEntries input).map Entry.key).Nodup := by
  have hperm : ((deduplicateEntries input).map Entry.key).Perm (mapBy Entry.key input).keys := by
    refine ((perm_insertionSort _ _).map Entry.key).trans ?_
    rw [map_map]
    refine List.Perm.of_eq (map_congr_left fun entry hentry => ?_)
    exact (mem_of_lookup_mapBy (AList.mem_lookup_iff.mpr hentry)).2
  exact hperm.nodup_iff.mpr (mapBy Entry.key input).keys_nodup

theorem table_eq_some_iff (hnodup : (entries.map Entry.key).Nodup) :
    table entries k = some e ↔ e ∈ entries ∧ e.key = k := by
  constructor
  · exact mem_of_lookup_mapBy
  · rintro ⟨hmem, rfl⟩
    exact lookup_mapBy hnodup hmem

theorem table_eq_none_iff : table entries k = none ↔ k ∉ entries.map Entry.key :=
  lookup_mapBy_eq_none_iff

theorem key_mem_deduplicateEntries (h : e ∈ input) :
    e.key ∈ (deduplicateEntries input).map Entry.key := by
  have hsome : table input e.key ≠ none :=
    fun hnone => table_eq_none_iff.mp hnone (mem_map_of_mem h)
  obtain ⟨e', he'⟩ := Option.ne_none_iff_exists'.mp hsome
  have hkey : e'.key = e.key := (mem_of_lookup_mapBy he').2
  rw [← hkey] at he' ⊢
  exact mem_map_of_mem (mem_deduplicateEntries.mpr he')

theorem mem_of_mem_deduplicateEntries (h : e ∈ deduplicateEntries input) : e ∈ input :=
  (mem_of_lookup_mapBy (mem_deduplicateEntries.mp h)).1

end Deduplicate

/-! ### What the entries are -/

def HasRole (routes : List RouteOperation) (routePrefix : String) (role : Role) : Prop :=
  ∃ route ∈ routes, route.routePrefix = routePrefix ∧ roleOf route = role

instance decidableHasRole (routes : List RouteOperation) (routePrefix : String) (role : Role) :
    Decidable (HasRole routes routePrefix role) :=
  decidableBEx _ _

variable {routePrefix : String}

theorem mem_prefixes :
    routePrefix ∈ prefixes routes ↔ ∃ route ∈ routes, route.routePrefix = routePrefix := by
  unfold prefixes
  rw [mem_sortStrings, mem_dedup, mem_map]

theorem exists_hasRole (h : routePrefix ∈ prefixes routes) :
    ∃ role, HasRole routes routePrefix role := by
  obtain ⟨route, hroute, hp⟩ := mem_prefixes.mp h
  exact ⟨roleOf route, route, hroute, hp, rfl⟩

theorem HasRole.mem_prefixes {role : Role} (h : HasRole routes routePrefix role) :
    routePrefix ∈ prefixes routes := by
  obtain ⟨route, hroute, hp, -⟩ := h
  exact Gribi.mem_prefixes.mpr ⟨route, hroute, hp⟩

section Shape

variable {lib : Library} {networkInstance : String} {routes : List RouteOperation}
  {routePrefix : String} {role : Role} {e : Entry}

theorem stableID_ne_zero (parts : List String) : stableID lib parts ≠ 0 := by
  unfold stableID
  dsimp only
  split_ifs with hzero
  · decide
  · exact hzero

variable {route : RouteOperation}

/-- The routes to a prefix as `prefixEntries` has them. -/
abbrev sortedGroup (lib : Library) (routes : List RouteOperation) (routePrefix : String) :
    List RouteOperation :=
  lib.sortRoutes.sort (routeGroup lib routes routePrefix)

theorem mem_group : route ∈ sortedGroup lib routes routePrefix ↔
    route ∈ routes ∧ route.routePrefix = routePrefix := by
  unfold sortedGroup routeGroup
  rw [(lib.sortRoutes.perm _).mem_iff, (lib.sortRoutes.perm _).mem_iff, mem_filter,
    decide_eq_true_eq]

def roleRoutes (lib : Library) (routes : List RouteOperation) (routePrefix : String) (role : Role) :
    List RouteOperation :=
  (lib.sortRoutes.sort (routeGroup lib routes routePrefix)).filter fun route => roleOf route = role

theorem roleRoutes_eq_nil_iff :
    roleRoutes lib routes routePrefix role = [] ↔ ¬ HasRole routes routePrefix role := by
  unfold roleRoutes
  rw [filter_eq_nil_iff]
  constructor
  · rintro hnone ⟨route, hroute, hp, hrole⟩
    exact hnone route (mem_group.mpr ⟨hroute, hp⟩) (decide_eq_true hrole)
  · intro hnone route hmem hrole
    obtain ⟨hroute, hp⟩ := mem_group.mp hmem
    exact hnone ⟨route, hroute, hp, of_decide_eq_true hrole⟩

def backupOf (lib : Library) (networkInstance : String) (routes : List RouteOperation)
    (routePrefix : String) (role : Role) : Option UInt64 :=
  if role = .primary ∧ HasRole routes routePrefix .backup then
    some (groupID lib networkInstance routePrefix .backup) else none

section Groups

variable (lib networkInstance routes routePrefix role)

theorem roleGroupID_eq :
    roleGroupID lib networkInstance (sortedGroup lib routes routePrefix) routePrefix role =
      if HasRole routes routePrefix role then groupID lib networkInstance routePrefix role
      else 0 := by
  show (if roleRoutes lib routes routePrefix role = [] then _ else _) = _
  by_cases hrole : HasRole routes routePrefix role
  · rw [if_pos hrole, if_neg fun hnil => roleRoutes_eq_nil_iff.mp hnil hrole]
  · rw [if_neg hrole, if_pos (roleRoutes_eq_nil_iff.mpr hrole)]

theorem roleEntries_eq :
    roleEntries lib networkInstance (sortedGroup lib routes routePrefix) routePrefix role =
      if HasRole routes routePrefix role then
        nextHopEntries lib networkInstance [] (roleRoutes lib routes routePrefix role) ++
        [.group (groupID lib networkInstance routePrefix role)
          ((roleRoutes lib routes routePrefix role).map fun route =>
            nextHopID lib networkInstance route.nextHop)
          (backupOf lib networkInstance routes routePrefix role)]
      else [] := by
  have hne : groupID lib networkInstance routePrefix .backup ≠ 0 := stableID_ne_zero _
  unfold roleEntries backupOf
  rw [roleGroupID_eq]
  show (if roleRoutes lib routes routePrefix role = [] then _ else _) = _
  by_cases hrole : HasRole routes routePrefix role
  · rw [if_pos hrole, if_neg fun hnil => roleRoutes_eq_nil_iff.mp hnil hrole]
    by_cases hbackup : HasRole routes routePrefix .backup
    · simp only [hbackup, if_true, ne_eq, hne, not_false_eq_true]
      rfl
    · simp only [hbackup, if_false, ne_eq, not_true_eq_false, and_false]
      rfl
  · rw [if_neg hrole, if_pos (roleRoutes_eq_nil_iff.mpr hrole)]

/-- The primary group of a prefix if there is one, and the backup group otherwise. -/
theorem exists_role_of_prefix (h : routePrefix ∈ prefixes routes) :
    let id := roleGroupID lib networkInstance (sortedGroup lib routes routePrefix) routePrefix
    ∃ role, HasRole routes routePrefix role ∧ (if id .primary = 0 then id .backup
      else id .primary) = groupID lib networkInstance routePrefix role := by
  dsimp only
  rw [roleGroupID_eq, roleGroupID_eq]
  by_cases hprimary : HasRole routes routePrefix .primary
  · have hne : groupID lib networkInstance routePrefix .primary ≠ 0 := stableID_ne_zero _
    refine ⟨.primary, hprimary, ?_⟩
    rw [if_pos hprimary, if_neg hne]
  · have hbackup : HasRole routes routePrefix .backup := by
      obtain ⟨role, hrole⟩ := exists_hasRole h
      cases role with
      | primary => exact absurd hrole hprimary
      | backup => exact hrole
    refine ⟨.backup, hbackup, ?_⟩
    rw [if_neg hprimary, if_pos rfl, if_pos hbackup]

end Groups

inductive Built (lib : Library) (networkInstance : String) (routes : List RouteOperation) :
    Entry → Prop where
  | nextHop (route : RouteOperation) (mem : route ∈ routes) : Built lib networkInstance routes
      (.nextHop (nextHopID lib networkInstance route.nextHop) route.nextHop)
  | group (routePrefix : String) (role : Role) (nextHops : List UInt64)
      (has : HasRole routes routePrefix role) : Built lib networkInstance routes
      (.group (groupID lib networkInstance routePrefix role) nextHops
        (backupOf lib networkInstance routes routePrefix role))
  | ip (routePrefix : String) (role : Role) (metadata : UInt64)
      (has : HasRole routes routePrefix role) : Built lib networkInstance routes
      (.ip (isIPv4 routePrefix) routePrefix (groupID lib networkInstance routePrefix role) metadata)

variable {seen : List UInt64} {group : List RouteOperation}

theorem built_nextHopEntries (h : e ∈ nextHopEntries lib networkInstance seen group) :
    ∃ route ∈ group, e = .nextHop (nextHopID lib networkInstance route.nextHop) route.nextHop := by
  -- the loop over the routes, with the identifiers seen so far
  induction group generalizing seen with
  | nil => cases h
  | cons route group ih =>
    unfold nextHopEntries at h
    dsimp only at h
    split_ifs at h with hseen
    · obtain ⟨route', hroute', he⟩ := ih h
      exact ⟨route', mem_cons_of_mem route hroute', he⟩
    · rcases mem_cons.mp h with rfl | hrest
      · exact ⟨route, mem_cons_self, rfl⟩
      · obtain ⟨route', hroute', he⟩ := ih hrest
        exact ⟨route', mem_cons_of_mem route hroute', he⟩

theorem exists_nextHopEntry (lib : Library) (networkInstance : String) (hroute : route ∈ group)
    (hseen : nextHopID lib networkInstance route.nextHop ∉ seen) :
    ∃ address, .nextHop (nextHopID lib networkInstance route.nextHop) address ∈
      nextHopEntries lib networkInstance seen group := by
  induction group generalizing seen with
  | nil => cases hroute
  | cons head group ih =>
    unfold nextHopEntries
    dsimp only
    -- the first route with the identifier has the entry
    by_cases hid : nextHopID lib networkInstance head.nextHop =
        nextHopID lib networkInstance route.nextHop
    · rw [hid, if_neg hseen]
      exact ⟨head.nextHop, mem_cons_self⟩
    · have htail : route ∈ group := by
        rcases mem_cons.mp hroute with rfl | htail
        · exact absurd rfl hid
        · exact htail
      split_ifs
      · exact ih htail hseen
      · have hnew : nextHopID lib networkInstance route.nextHop ∉
            nextHopID lib networkInstance head.nextHop :: seen := by
          rw [mem_cons, not_or]
          exact ⟨Ne.symm hid, hseen⟩
        obtain ⟨address, hmem⟩ := ih htail hnew
        exact ⟨address, mem_cons_of_mem _ hmem⟩

theorem mem_rawEntries : e ∈ rawEntries lib networkInstance routes ↔
    ∃ routePrefix ∈ prefixes routes, e ∈ prefixEntries lib networkInstance routes routePrefix :=
  mem_flatMap

theorem mem_prefixEntries (h : e ∈ prefixEntries lib networkInstance routes routePrefix)
    (hp : routePrefix ∈ prefixes routes) :
    (∃ role, e ∈ roleEntries lib networkInstance (sortedGroup lib routes routePrefix) routePrefix
      role) ∨ ∃ role, HasRole routes routePrefix role ∧ e = .ip (isIPv4 routePrefix) routePrefix
        (groupID lib networkInstance routePrefix role)
        (lib.routeToken (sortedGroup lib routes routePrefix)) := by
  rcases mem_append.mp h with hroles | hip
  · refine .inl ?_
    rcases mem_append.mp hroles with hbackup | hprimary
    · exact ⟨_, hbackup⟩
    · exact ⟨_, hprimary⟩
  · obtain ⟨role, hrole, hid⟩ := exists_role_of_prefix lib networkInstance routes routePrefix hp
    exact .inr ⟨role, hrole, hid ▸ mem_singleton.mp hip⟩

theorem built_of_mem_rawEntries (h : e ∈ rawEntries lib networkInstance routes) :
    Built lib networkInstance routes e := by
  obtain ⟨routePrefix, hp, hmem⟩ := mem_rawEntries.mp h
  obtain ⟨role, hentries⟩ | ⟨role, hrole, rfl⟩ := mem_prefixEntries hmem hp
  · rw [roleEntries_eq] at hentries
    split_ifs at hentries with hrole
    · rcases mem_append.mp hentries with hnextHop | hgroup
      · obtain ⟨route, hroute, rfl⟩ := built_nextHopEntries hnextHop
        exact .nextHop route (mem_group.mp (mem_of_mem_filter hroute)).1
      · rw [mem_singleton.mp hgroup]
        exact .group routePrefix role _ hrole
    · cases hentries
  · exact .ip routePrefix role _ hrole

theorem mem_rawEntries_of_roleEntries (role : Role) (hp : routePrefix ∈ prefixes routes)
    (h : e ∈ roleEntries lib networkInstance (sortedGroup lib routes routePrefix) routePrefix role) :
    e ∈ rawEntries lib networkInstance routes := by
  refine mem_rawEntries.mpr ⟨routePrefix, hp, mem_append_left _ ?_⟩
  cases role with
  | backup => exact mem_append_left _ h
  | primary => exact mem_append_right _ h

theorem groupEntry_mem (lib : Library) (networkInstance : String)
    (h : HasRole routes routePrefix role) :
    .group (groupID lib networkInstance routePrefix role)
      ((roleRoutes lib routes routePrefix role).map fun route =>
        nextHopID lib networkInstance route.nextHop)
      (backupOf lib networkInstance routes routePrefix role) ∈
        rawEntries lib networkInstance routes := by
  refine mem_rawEntries_of_roleEntries role h.mem_prefixes ?_
  rw [roleEntries_eq, if_pos h]
  exact mem_append_right _ mem_cons_self

theorem exists_ipEntry (lib : Library) (networkInstance : String)
    (h : routePrefix ∈ prefixes routes) :
    ∃ group metadata, .ip (isIPv4 routePrefix) routePrefix group metadata ∈
      rawEntries lib networkInstance routes :=
  ⟨_, _, mem_rawEntries.mpr ⟨routePrefix, h, mem_append_right _ mem_cons_self⟩⟩

theorem exists_nextHop_of_group {id index : UInt64} {nextHops : List UInt64}
    {backup : Option UInt64} (h : .group id nextHops backup ∈ rawEntries lib networkInstance routes)
    (hindex : index ∈ nextHops) :
    ∃ address, .nextHop index address ∈ rawEntries lib networkInstance routes := by
  obtain ⟨routePrefix, hp, hmem⟩ := mem_rawEntries.mp h
  -- the group is the one of a role
  obtain ⟨role, hrole⟩ | ⟨_, -, heq⟩ := mem_prefixEntries hmem hp
  on_goal 2 => cases heq
  rw [roleEntries_eq] at hrole
  split_ifs at hrole with hhas
  · rcases mem_append.mp hrole with hnextHop | hgroup
    · obtain ⟨route, -, heq⟩ := built_nextHopEntries hnextHop
      cases heq
    · obtain ⟨-, rfl, -⟩ := Entry.group.inj (mem_singleton.mp hgroup)
      obtain ⟨route, hroute, rfl⟩ := mem_map.mp hindex
      obtain ⟨address, hentry⟩ := exists_nextHopEntry lib networkInstance hroute not_mem_nil
      refine ⟨address, mem_rawEntries_of_roleEntries role hp ?_⟩
      rw [roleEntries_eq, if_pos hhas]
      exact mem_append_left _ hentry
  · cases hrole

end Shape

end StarFabric.Gribi

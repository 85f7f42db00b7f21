import StarFabric.Gribi.Diff
import Mathlib

/-!
# Writing routes and reading them back

`GRIBIProgrammer` of `internal/adapter/openconfig/gribi.go` keeps the routes to each prefix in a
catalog, under the token that the IP entry of the prefix carries. `Read` looks the tokens up,
computes the entries of the routes it finds, and compares. `Holds` is the invariant of a history of
calls. Where `sort.Slice` tells all routes apart, `Read` finds the routes that were written
(`read_ok`).
-/

namespace StarFabric.Gribi

open Edits Except ExceptFold Go List Option

abbrev Catalog := AList fun _ : UInt64 => List RouteOperation

structure State where
  catalog : Catalog := ∅
  aft : String → Option Entry := fun _ => none

def routeKey (route : RouteOperation) : String :=
  "\x00".intercalate [route.device, route.routePrefix, route.nextHop, route.pathRole,
    toString route.metric, route.intentID]

section Programmer

variable (lib : Library) (networkInstance : String)

def routeGroups (routes : List RouteOperation) : List (List RouteOperation) :=
  (prefixes routes).map (routeGroup lib routes)

def rememberGroup (catalog : Catalog) (group : List RouteOperation) : Except String Catalog :=
  match catalog.lookup (lib.routeToken group) with
  | some existing =>
    -- the same routes may be remembered again
    if existing ≠ group then .error "gRIBI route metadata token collision"
    else .ok (catalog.insert (lib.routeToken group) group)
  | none => .ok (catalog.insert (lib.routeToken group) group)

def rememberRoutes (catalog : Catalog) (routes : List RouteOperation) : Except String Catalog :=
  (routeGroups lib routes).foldlM (rememberGroup lib) catalog

def apply (s : State) (previous desired : List RouteOperation) : Except String State := do
  let catalog ← rememberRoutes lib s.catalog previous
  let catalog ← rememberRoutes lib catalog desired
  -- both sets are remembered before anything is sent
  let previousEntries ← entriesForRoutes lib networkInstance previous
  let desiredEntries ← entriesForRoutes lib networkInstance desired
  .ok
    { catalog := catalog
      aft := run s.aft ((operations previousEntries desiredEntries).map Operation.edit) }

/-- A history of calls of `Apply`, each with the routes of the call before. -/
def applyAll : State → List RouteOperation → List (List RouteOperation) → Except String State
  | s, _, [] => .ok s
  | s, previous, desired :: history => do
    let s' ← apply lib networkInstance s previous desired
    applyAll s' desired history

def catalogRoutes (catalog : Catalog) : Entry → List RouteOperation
  | .ip _ _ _ metadata => (catalog.lookup metadata).getD []
  | _ => []

def appendUnseen (routes : List RouteOperation) (route : RouteOperation) : List RouteOperation :=
  if routeKey route ∈ routes.map routeKey then routes else routes ++ [route]

/-- The routes of the entries, in the order of `SortRoutes`. -/
def activeRoutes (catalog : Catalog) (response : List Entry) : List RouteOperation :=
  lib.sortRoutes.sort ((response.flatMap (catalogRoutes catalog)).foldl appendUnseen [])

def checkDrift (actual : String → Option Entry) (wanted : Entry) : Except String Unit :=
  if actual wanted.key = some wanted then .ok ()
  else .error ("gRIBI AFT drift for " ++ wanted.key)

def checkStale (actual expected : String → Option Entry) (known : Entry) : Except String Unit :=
  if actual known.key ≠ none ∧ expected known.key = none then
    .error ("stale StarFabric gRIBI AFT entry " ++ known.key)
  else .ok ()

def read (catalog : Catalog) (response : List Entry) : Except String (List RouteOperation) := do
  let routes := activeRoutes lib catalog response
  -- the routes are grouped and sorted again on the way to their entries
  let expected ← entriesForRoutes lib networkInstance routes
  expected.forM (checkDrift (table response))
  -- the catalog also has the groups of all earlier calls
  (catalog.entries.map Sigma.snd).forM fun knownRoutes => do
    let knownEntries ← entriesForRoutes lib networkInstance knownRoutes
    knownEntries.forM (checkStale (table response) (table expected))
  .ok routes

end Programmer

/-! ### Keys of routes -/

def identity (route : RouteOperation) : String × String × String × ℤ × String :=
  (route.routePrefix, route.nextHop, route.pathRole, route.metric, route.intentID)

/-- No text of the key of a route has the character that separates them. -/
def NoNUL (route : RouteOperation) : Prop :=
  ∀ text ∈ [route.device, route.routePrefix, route.nextHop, route.pathRole, route.intentID],
    '\x00' ∉ text.toList

instance decidableNoNUL (route : RouteOperation) : Decidable (NoNUL route) :=
  decidableBAll _ _

theorem nul_notMem_toString (n : ℤ) : '\x00' ∉ (toString n).toList := by
  -- a number is digits, perhaps with a sign
  have hdigits : ∀ m : ℕ, '\x00' ∉ m.repr.toList := by
    intro m hmem
    rw [Nat.repr_eq_ofList_toDigits, String.toList_ofList] at hmem
    exact absurd (Nat.isDigit_of_mem_toDigits (by decide) (by decide) hmem) (by decide)
  show '\x00' ∉ n.repr.toList
  rw [Int.repr_eq_if]
  split_ifs
  · exact hdigits _
  · rw [String.toList_append, mem_append, not_or]
    exact ⟨by decide, hdigits _⟩

theorem identity_eq_of_routeKey_eq {a b : RouteOperation} (ha : NoNUL a) (hb : NoNUL b)
    (h : routeKey a = routeKey b) : identity a = identity b := by
  -- the texts of a key are found again between the separators
  have hsplit : ∀ route, NoNUL route → (routeKey route).toList.splitOn '\x00' =
      [route.device, route.routePrefix, route.nextHop, route.pathRole, toString route.metric,
        route.intentID].map String.toList := by
    intro route hroute
    unfold routeKey
    rw [String.toList_intercalate]
    refine splitOn_intercalate '\x00' ?_ (cons_ne_nil _ _)
    intro l hl
    obtain ⟨text, htext, rfl⟩ := mem_map.mp hl
    by_cases hmetric : text = toString route.metric
    · rw [hmetric]
      exact nul_notMem_toString route.metric
    · refine hroute text ?_
      simp only [mem_cons, not_mem_nil, or_false, hmetric, false_or] at htext ⊢
      exact htext
  have htexts := (hsplit a ha).symm.trans ((congrArg _ (congrArg _ h)).trans (hsplit b hb))
  obtain ⟨-, hdestination, hnextHop, hrole, hmetric, hintent⟩ :
      a.device = b.device ∧ a.routePrefix = b.routePrefix ∧ a.nextHop = b.nextHop ∧
        a.pathRole = b.pathRole ∧ toString a.metric = toString b.metric ∧
        a.intentID = b.intentID := by
    simpa [String.toList_inj] using htexts
  -- and a number from its digits
  have hvalue : a.metric = b.metric := Int.repr_injective hmetric
  unfold identity
  rw [hdestination, hnextHop, hrole, hvalue, hintent]

/-! ### A history of calls -/

section

variable {lib : Library} {networkInstance : String}

variable {group : List RouteOperation}

theorem rememberGroup_eq_ok_iff {catalog catalog' : Catalog} :
    rememberGroup lib catalog group = .ok catalog' ↔
      (∀ existing, catalog.lookup (lib.routeToken group) = some existing → existing = group) ∧
        catalog' = catalog.insert (lib.routeToken group) group := by
  unfold rememberGroup
  -- a token that is taken must be taken by the same routes
  cases catalog.lookup (lib.routeToken group) with
  | none => exact ⟨fun h => ⟨nofun, (ok.inj h).symm⟩, fun h => congrArg ok h.2.symm⟩
  | some existing =>
    by_cases heq : existing = group
    · subst heq
      dsimp only
      rw [if_neg (not_not.mpr rfl)]
      constructor
      · intro h
        exact ⟨fun _ h' => (Option.some.inj h').symm, (ok.inj h).symm⟩
      · rintro ⟨-, rfl⟩
        rfl
    · dsimp only
      rw [if_pos heq]
      exact iff_of_false nofun fun h => heq (h.1 existing rfl)

variable {routes : List RouteOperation}

theorem rememberRoutes_ok {catalog catalog' : Catalog}
    (h : rememberRoutes lib catalog routes = .ok catalog') :
    (∀ group ∈ routeGroups lib routes, catalog'.lookup (lib.routeToken group) = some group) ∧
      ∀ token group, catalog'.lookup token = some group →
        catalog.lookup token = some group ∨ group ∈ routeGroups lib routes := by
  -- the invariant speaks about the groups of the rounds so far
  refine foldlM_history (P := fun done c =>
    (∀ group ∈ done, c.lookup (lib.routeToken group) = some group) ∧
      ∀ token group, c.lookup token = some group →
        catalog.lookup token = some group ∨ group ∈ done) ?_ [] ?_ h
  · rintro done group c c' ⟨hdone, hfrom⟩ hround
    obtain ⟨hfree, rfl⟩ := rememberGroup_eq_ok_iff.mp hround
    constructor
    · intro g hg
      by_cases htoken : lib.routeToken g = lib.routeToken group
      · -- a group with the token of the round is the group of the round
        have hsame : g = group := by
          rcases mem_append.mp hg with hold | hnew
          · exact hfree g (htoken ▸ hdone g hold)
          · exact mem_singleton.mp hnew
        rw [hsame]
        exact AList.lookup_insert c
      · rw [AList.lookup_insert_ne htoken]
        rcases mem_append.mp hg with hold | hnew
        · exact hdone g hold
        · exact absurd (congrArg _ (mem_singleton.mp hnew)) htoken
    · intro token g hlookup
      by_cases htoken : token = lib.routeToken group
      · subst htoken
        rw [AList.lookup_insert] at hlookup
        cases hlookup
        exact .inr (mem_append_right _ mem_cons_self)
      · rw [AList.lookup_insert_ne htoken] at hlookup
        exact (hfrom token g hlookup).imp_right (mem_append_left _)
  · exact ⟨nofun, fun _ _ hlookup => .inl hlookup⟩

variable {previous : List RouteOperation}

theorem apply_eq_ok_iff {s s' : State} {desired : List RouteOperation} :
    apply lib networkInstance s previous desired = .ok s' ↔
      ∃ between catalog old new, rememberRoutes lib s.catalog previous = .ok between ∧
        rememberRoutes lib between desired = .ok catalog ∧
        entriesForRoutes lib networkInstance previous = .ok old ∧
        entriesForRoutes lib networkInstance desired = .ok new ∧
        s' = ⟨catalog, run s.aft ((operations old new).map Operation.edit)⟩ := by
  unfold apply
  simp only [bind_eq_ok, ok.injEq]
  constructor
  · rintro ⟨between, hbetween, catalog, hcatalog, old, hold, new, hnew, rfl⟩
    exact ⟨between, catalog, old, new, hbetween, hcatalog, hold, hnew, rfl⟩
  · rintro ⟨between, catalog, old, new, hbetween, hcatalog, hold, hnew, rfl⟩
    exact ⟨between, hbetween, catalog, hcatalog, old, hold, new, hnew, rfl⟩

theorem mem_routeGroup {routePrefix : String} {route : RouteOperation} :
    route ∈ routeGroup lib routes routePrefix ↔
      route ∈ routes ∧ route.routePrefix = routePrefix := by
  unfold routeGroup
  rw [(lib.sortRoutes.perm _).mem_iff, mem_filter, decide_eq_true_eq]

/-- The table has the entries of some routes, and the catalog remembers them. -/
structure Holds (lib : Library) (networkInstance : String) (s : State)
    (routes : List RouteOperation) : Prop where
  entries : ∃ entries, entriesForRoutes lib networkInstance routes = .ok entries ∧
    s.aft = table entries
  remembered : ∀ group ∈ routeGroups lib routes,
    s.catalog.lookup (lib.routeToken group) = some group
  checked : ∀ token group, s.catalog.lookup token = some group →
    ∀ route ∈ group, checkRoute route = .ok ()

theorem holds_start : Holds lib networkInstance {} [] where
  entries := ⟨[], rfl, rfl⟩
  remembered _ hgroup := absurd hgroup not_mem_nil
  checked _ _ hlookup := nomatch hlookup

theorem checked_of_mem_routeGroups {entries : List Entry}
    (h : entriesForRoutes lib networkInstance routes = .ok entries)
    (hgroup : group ∈ routeGroups lib routes) : ∀ route ∈ group, checkRoute route = .ok () := by
  intro route hroute
  obtain ⟨routePrefix, -, rfl⟩ := mem_map.mp hgroup
  exact (entriesForRoutes_eq_ok_iff.mp h).1 route (mem_routeGroup.mp hroute).1

theorem holds_apply {s s' : State} {desired : List RouteOperation}
    (hs : Holds lib networkInstance s previous)
    (h : apply lib networkInstance s previous desired = .ok s') :
    Holds lib networkInstance s' desired := by
  -- what the call has done, step by step
  obtain ⟨between, catalog, old, new, hbetween, hcatalog, hold, hnew, rfl⟩ := apply_eq_ok_iff.mp h
  obtain ⟨hremembered, hfrom⟩ := rememberRoutes_ok hcatalog
  have hfrom' := (rememberRoutes_ok hbetween).2
  refine ⟨⟨new, hnew, ?_⟩, hremembered, ?_⟩
  · obtain ⟨entries, hentries, haft⟩ := hs.entries
    -- the previous routes are the ones whose entries are there
    cases hold.symm.trans hentries
    show run s.aft _ = table new
    rw [haft]
    exact run_all_operations (tidy_entriesForRoutes hold) (tidy_entriesForRoutes hnew)
  · -- a group of the catalog was there before, or is one of the two sets'
    intro token group hlookup
    rcases hfrom token group hlookup with hlookup' | hgroup
    · rcases hfrom' token group hlookup' with hlookup'' | hgroup
      · exact hs.checked token group hlookup''
      · exact checked_of_mem_routeGroups hold hgroup
    · exact checked_of_mem_routeGroups hnew hgroup

theorem holds_applyAll {s s' : State} {history : List (List RouteOperation)}
    (hs : Holds lib networkInstance s previous)
    (h : applyAll lib networkInstance s previous history = .ok s') :
    Holds lib networkInstance s' (history.getLastD previous) := by
  -- the routes of one call are the previous ones of the next
  induction history generalizing s previous with
  | nil =>
    cases h
    exact hs
  | cons desired history ih =>
    obtain ⟨between, hbetween, hrest⟩ := bind_eq_ok.mp h
    rw [getLastD_cons]
    exact ih (holds_apply hs hbetween) hrest

end

/-! ### Routes that are told apart -/

/-- Routes that `Read` and `SortRoutes` both tell apart. -/
structure Separate (routes : List RouteOperation) : Prop where
  distinct : (routes.map identity).Nodup
  untied : (routes.map sortKey).Nodup
  text : ∀ route ∈ routes, NoNUL route

namespace Separate

variable {lib : Library} {networkInstance : String} {routes routes' : List RouteOperation}

theorem nodup (h : Separate routes) : routes.Nodup := h.untied.of_map sortKey

theorem perm (h : Separate routes) (hperm : routes'.Perm routes) : Separate routes' where
  distinct := (hperm.map identity).nodup_iff.mpr h.distinct
  untied := (hperm.map sortKey).nodup_iff.mpr h.untied
  text route hroute := h.text route (hperm.mem_iff.mp hroute)

theorem nodup_routeKey (h : Separate routes) : (routes.map routeKey).Nodup := by
  -- the key has the identity, and identities differ
  refine h.nodup.map_on fun a ha b hb hkey => ?_
  have hidentity : identity a = identity b :=
    identity_eq_of_routeKey_eq (h.text a ha) (h.text b hb) hkey
  exact inj_on_of_nodup_map h.distinct ha hb hidentity

theorem distinguishes (h : Separate routes) (p : RouteOperation → Bool) :
    SortSlice.Distinguishes routeLess (routes.filter p) :=
  routeLess_by.distinguishes fun _ ha _ hb heq =>
    inj_on_of_nodup_map h.untied (mem_of_mem_filter ha) (mem_of_mem_filter hb) heq

theorem sort_routeGroup (h : Separate routes) (routePrefix : String) :
    lib.sortRoutes.sort (routeGroup lib routes routePrefix) = routeGroup lib routes routePrefix :=
  lib.sortRoutes.eq_of_perm (h.distinguishes _) (lib.sortRoutes.perm _)

theorem routeGroup_perm (h : Separate routes) (hperm : routes'.Perm routes) (routePrefix : String) :
    routeGroup lib routes' routePrefix = routeGroup lib routes routePrefix :=
  lib.sortRoutes.eq_of_perm (h.distinguishes _) (hperm.filter _)

end Separate

theorem prefixes_perm {routes routes' : List RouteOperation} (hperm : routes'.Perm routes) :
    prefixes routes' = prefixes routes := by
  -- both lists are sorted, and they have the same prefixes
  have hnames : (routes'.map RouteOperation.routePrefix).dedup.Perm
      (routes.map RouteOperation.routePrefix).dedup := (hperm.map _).dedup
  refine List.Perm.eq_of_pairwise' (pairwise_insertionSort _ _) (pairwise_insertionSort _ _) ?_
  calc List.Perm _ (routes'.map RouteOperation.routePrefix).dedup := perm_insertionSort _ _
    List.Perm _ (routes.map RouteOperation.routePrefix).dedup := hnames
    List.Perm _ _ := (perm_insertionSort _ _).symm

theorem entriesForRoutes_perm {lib : Library} {networkInstance : String}
    {routes routes' : List RouteOperation} {entries : List Entry} (hroutes : Separate routes)
    (hperm : routes'.Perm routes)
    (h : entriesForRoutes lib networkInstance routes = .ok entries) :
    entriesForRoutes lib networkInstance routes' = .ok entries := by
  obtain ⟨hchecked, rfl⟩ := entriesForRoutes_eq_ok_iff.mp h
  refine entriesForRoutes_eq_ok_iff.mpr ⟨fun route hroute => ?_, ?_⟩
  · exact hchecked route (hperm.mem_iff.mp hroute)
  · unfold rawEntries
    rw [prefixes_perm hperm]
    -- the entries of a prefix depend on its group only
    have hentries : prefixEntries lib networkInstance routes' =
        prefixEntries lib networkInstance routes := by
      funext routePrefix
      unfold prefixEntries
      rw [hroutes.routeGroup_perm hperm]
    rw [hentries]

theorem foldl_appendUnseen {routes more : List RouteOperation}
    (h : ((routes ++ more).map routeKey).Nodup) :
    more.foldl appendUnseen routes = routes ++ more := by
  -- the routes that were appended so far have other keys
  induction more generalizing routes with
  | nil => exact (append_nil routes).symm
  | cons route more ih =>
    have hnew : routeKey route ∉ routes.map routeKey := by
      rw [map_append, nodup_append'] at h
      exact fun hmem => h.2.2 hmem mem_cons_self
    rw [append_cons] at h ⊢
    rw [foldl_cons, appendUnseen, if_neg hnew]
    exact ih h

/-! ### Reading -/

/-- The server lists the entries of a table, in some order. -/
structure Lists (response : List Entry) (aft : String → Option Entry) : Prop where
  nodup : response.Nodup
  mem : ∀ e, e ∈ response ↔ aft e.key = some e

section Read

variable {lib : Library} {networkInstance : String} {routes : List RouteOperation}
  {entries response : List Entry} {catalog : Catalog} {e : Entry}

theorem lists_of_perm (htidy : Tidy entries) (h : response.Perm entries) :
    Lists response (table entries) where
  nodup := h.nodup_iff.mpr (htidy.nodup.of_map Entry.key)
  mem e := by
    rw [h.mem_iff, table_eq_some_iff htidy.nodup]
    exact ⟨fun he => ⟨he, rfl⟩, And.left⟩

theorem Lists.key_inj (h : Lists response (table entries)) {e e' : Entry} (he : e ∈ response)
    (he' : e' ∈ response) (hkey : e.key = e'.key) : e = e' := by
  have hsome : table entries e'.key = some e := hkey ▸ (h.mem e).mp he
  exact Option.some.inj (hsome.symm.trans ((h.mem e').mp he'))

theorem Lists.table_eq (h : Lists response (table entries)) : table response = table entries := by
  -- a table has one entry for each key, so the list has
  have hkeys : (response.map Entry.key).Nodup := h.nodup.map_on fun e he e' he' => h.key_inj he he'
  funext k
  apply ext
  intro e
  rw [table_eq_some_iff hkeys, h.mem]
  constructor
  · rintro ⟨he, rfl⟩
    exact he
  · intro he
    have hkey : e.key = k := (mem_of_lookup_mapBy he).2
    exact ⟨hkey ▸ he, hkey⟩

variable {p : String}

theorem ipKey_inj {v4 v4' : Bool} {p' : String} (h : ipKey v4 p = ipKey v4' p') : p = p' := by
  have hlist := congrArg String.toList h
  rw [toList_ipKey, toList_ipKey] at hlist
  -- the part before the prefix has the same length for both families
  have hlength : (['i', 'p', 'v'] ++ if v4 then ['4', '/'] else ['6', '/']).length =
      (['i', 'p', 'v'] ++ if v4' then ['4', '/'] else ['6', '/']).length := by
    cases v4 <;> cases v4' <;> rfl
  exact String.toList_inj.mp (append_inj hlist hlength).2

theorem ip_of_mem_rawEntries {v4 : Bool} {id metadata : UInt64}
    (h : .ip v4 p id metadata ∈ rawEntries lib networkInstance routes) :
    p ∈ prefixes routes ∧ v4 = isIPv4 p ∧
      metadata = lib.routeToken (lib.sortRoutes.sort (routeGroup lib routes p)) := by
  obtain ⟨p', hp', hmem⟩ := mem_rawEntries.mp h
  obtain ⟨role, hmem⟩ | ⟨role, -, heq⟩ := mem_prefixEntries hmem hp'
  · -- the entries of a role are next hops and a group
    rw [roleEntries_eq] at hmem
    split_ifs at hmem
    · rcases mem_append.mp hmem with hnextHop | hgroup
      · obtain ⟨route, -, heq⟩ := built_nextHopEntries hnextHop
        cases heq
      · exact absurd (mem_singleton.mp hgroup) nofun
    · cases hmem
  · obtain ⟨rfl, rfl, -, rfl⟩ := Entry.ip.inj heq
    exact ⟨hp', rfl, rfl⟩

variable {s : State}

section

variable (hs : Holds lib networkInstance s routes) (hroutes : Separate routes)
include hs hroutes

theorem Holds.lookup_group (hp : p ∈ prefixes routes) :
    s.catalog.lookup (lib.routeToken (lib.sortRoutes.sort (routeGroup lib routes p))) =
      some (routeGroup lib routes p) := by
  rw [hroutes.sort_routeGroup]
  exact hs.remembered _ (mem_map_of_mem hp)

theorem Holds.mem_catalogRoutes_iff (he : s.aft e.key = some e) {route : RouteOperation} :
    route ∈ catalogRoutes s.catalog e ↔
      route ∈ routes ∧ e.key = ipKey (isIPv4 route.routePrefix) route.routePrefix := by
  obtain ⟨entries, hentries, haft⟩ := hs.entries
  have hmem : e ∈ entries := by
    rw [haft] at he
    exact (mem_of_lookup_mapBy he).1
  rw [(entriesForRoutes_eq_ok_iff.mp hentries).2] at hmem
  -- only an IP entry has such a key
  have hkind : e.key = ipKey (isIPv4 route.routePrefix) route.routePrefix → e.kind = .ip :=
    fun hkey => kind_eq_of_key_eq
      (show e.key = (Entry.ip (isIPv4 route.routePrefix) route.routePrefix 0 0).key from hkey)
  cases e with
  | nextHop index address =>
    exact iff_of_false not_mem_nil fun h => absurd (hkind h.2) nofun
  | group id nextHops backup =>
    exact iff_of_false not_mem_nil fun h => absurd (hkind h.2) nofun
  | ip v4 p id metadata =>
    obtain ⟨hp, rfl, rfl⟩ := ip_of_mem_rawEntries (mem_of_mem_deduplicateEntries hmem)
    show route ∈ (s.catalog.lookup _).getD [] ↔ _
    -- the token leads to the routes of the prefix
    rw [hs.lookup_group hroutes hp, getD_some, mem_routeGroup]
    refine and_congr_right fun _ => ⟨?_, ?_⟩
    · rintro rfl
      rfl
    · intro hkey
      exact (ipKey_inj hkey).symm

theorem Holds.perm_flatMap (hresponse : Lists response s.aft) :
    (response.flatMap (catalogRoutes s.catalog)).Perm routes := by
  obtain ⟨entries, hentries, haft⟩ := hs.entries
  have hmem : ∀ {e}, e ∈ response → ∀ {route}, route ∈ catalogRoutes s.catalog e ↔
      route ∈ routes ∧ e.key = ipKey (isIPv4 route.routePrefix) route.routePrefix :=
    fun he => hs.mem_catalogRoutes_iff hroutes ((hresponse.mem _).mp he)
  have hnodup : (response.flatMap (catalogRoutes s.catalog)).Nodup := by
    rw [nodup_flatMap]
    constructor
    · -- the routes of an entry are those of a group
      intro e he
      cases e with
      | nextHop _ _ => exact nodup_nil
      | group _ _ _ => exact nodup_nil
      | ip v4 p id metadata =>
        have hraw := (hresponse.mem _).mp he
        rw [haft, (entriesForRoutes_eq_ok_iff.mp hentries).2] at hraw
        obtain ⟨hp, -, rfl⟩ := ip_of_mem_rawEntries
          (mem_of_mem_deduplicateEntries (mem_of_lookup_mapBy hraw).1)
        show ((s.catalog.lookup _).getD []).Nodup
        rw [hs.lookup_group hroutes hp, getD_some]
        exact (lib.sortRoutes.perm _).nodup_iff.mpr (hroutes.nodup.filter _)
    · -- two entries with a route in common have the same key
      refine hresponse.nodup.imp_of_mem fun {e e'} he he' hne route hroute hroute' => hne ?_
      have hkey : e.key = e'.key := ((hmem he).mp hroute).2.trans ((hmem he').mp hroute').2.symm
      rw [haft] at hresponse
      exact hresponse.key_inj he he' hkey
  refine (perm_ext_iff_of_nodup hnodup hroutes.nodup).mpr fun route => ?_
  rw [mem_flatMap]
  constructor
  · rintro ⟨e, he, hroute⟩
    exact ((hmem he).mp hroute).1
  · intro hroute
    -- the prefix of a route has an IP entry, and the server lists it
    obtain ⟨id, metadata, hip⟩ := exists_ipEntry lib networkInstance
      (mem_prefixes.mpr ⟨route, hroute, rfl⟩)
    obtain ⟨e, he, hkey⟩ := mem_map.mp (key_mem_deduplicateEntries hip)
    rw [← (entriesForRoutes_eq_ok_iff.mp hentries).2] at he
    have hlisted : e ∈ response := by
      rw [hresponse.mem, haft, table_eq_some_iff (tidy_entriesForRoutes hentries).nodup]
      exact ⟨he, rfl⟩
    exact ⟨e, hlisted, (hmem hlisted).mpr ⟨hroute, hkey⟩⟩

theorem Holds.perm_activeRoutes (hresponse : Lists response s.aft) :
    (activeRoutes lib s.catalog response).Perm routes := by
  -- no route is seen twice, so none is dropped
  have hperm := hs.perm_flatMap hroutes hresponse
  unfold activeRoutes
  rw [foldl_appendUnseen (hroutes.perm hperm).nodup_routeKey, nil_append]
  exact (lib.sortRoutes.perm _).trans hperm

theorem Holds.read_ok (hresponse : Lists response s.aft) :
    read lib networkInstance s.catalog response = .ok (activeRoutes lib s.catalog response) := by
  obtain ⟨entries, hentries, haft⟩ := hs.entries
  have htable : table response = table entries := by
    rw [haft] at hresponse
    exact hresponse.table_eq
  -- the order of the routes does not matter, so the expected entries are the ones that were sent
  have hexpected : entriesForRoutes lib networkInstance (activeRoutes lib s.catalog response) =
      .ok entries :=
    entriesForRoutes_perm hroutes (hs.perm_activeRoutes hroutes hresponse) hentries
  have hdrift : entries.forM (checkDrift (table response)) = .ok () := by
    refine forM_eq_ok_iff.mpr fun e he => if_pos ?_
    rw [htable]
    exact (table_eq_some_iff (tidy_entriesForRoutes hentries).nodup).mpr ⟨he, rfl⟩
  have hstale : ∀ e, checkStale (table response) (table entries) e = .ok () := by
    intro e
    rw [htable]
    exact if_neg fun h => h.1 h.2
  -- what is in the table is expected, whichever routes it also belongs to
  have hknown : ((s.catalog.entries.map Sigma.snd).forM fun knownRoutes => do
      let knownEntries ← entriesForRoutes lib networkInstance knownRoutes
      knownEntries.forM (checkStale (table response) (table entries))) = .ok () := by
    refine forM_eq_ok_iff.mpr fun group hgroup => ?_
    obtain ⟨⟨token, group⟩, hentry, rfl⟩ := mem_map.mp hgroup
    have hchecked := hs.checked token group (AList.mem_lookup_iff.mpr hentry)
    exact bind_eq_ok.mpr ⟨_, entriesForRoutes_eq_ok_iff.mpr ⟨hchecked, rfl⟩,
      forM_eq_ok_iff.mpr fun e _ => hstale e⟩
  exact bind_eq_ok.mpr ⟨entries, hexpected, bind_eq_ok.mpr ⟨(), hdrift,
    bind_eq_ok.mpr ⟨(), hknown, rfl⟩⟩⟩

end

end Read

/-! ### Intents with the same path -/

def toyHash (text : String) : UInt64 := text.toList.foldl (fun h c => 31 * h + c.toNat.toUInt64) 7

def hashLibrary (sortRoutes : SortSlice routeLess) : Library where
  digest := toyHash
  routeToken group := toyHash (String.join (group.map RouteOperation.intentID))
  sortRoutes := sortRoutes

def stableSort : SortSlice routeLess := routeLess_by.rearranged id List.Perm.refl

/-- Up to twelve routes are sorted stably, as `sort.Slice` does. In longer lists, routes that are
not told apart come out in the opposite order. -/
def unstableSort : SortSlice routeLess :=
  routeLess_by.rearranged (fun l => if l.length ≤ 12 then l else l.reverse) fun l => by
    split_ifs
    · exact List.Perm.refl l
    · exact l.reverse_perm

def toyRoute (n : ℕ) (intentID : String) : RouteOperation where
  device := "r1"
  routePrefix := "10.0." ++ toString n ++ ".0/24"
  nextHop := "192.0.2.1"
  nextHopNode := "r2"
  metric := 1
  intentID := intentID
  pathRole := "primary"

def stateAfter (sortRoutes : SortSlice routeLess) (history : List (List RouteOperation)) : State :=
  (applyAll (hashLibrary sortRoutes) "DEFAULT" {} [] history).toOption.getD {}

def listed (sortRoutes : SortSlice routeLess) (first : String) (routes : List RouteOperation) :
    List Entry :=
  let entries := deduplicateEntries (rawEntries (hashLibrary sortRoutes) "DEFAULT" routes)
  entries.filter (fun e => e.key = first) ++ entries.filter fun e => !decide (e.key = first)

variable {sortRoutes : SortSlice routeLess} {history : List (List RouteOperation)}

theorem applyAll_stateAfter
    (h : (applyAll (hashLibrary sortRoutes) "DEFAULT" {} [] history).toOption.isSome = true) :
    applyAll (hashLibrary sortRoutes) "DEFAULT" {} [] history =
      .ok (stateAfter sortRoutes history) := by
  obtain ⟨s, hs⟩ := exists_ok_of_isSome h
  unfold stateAfter
  rw [hs]
  rfl

theorem lists_listed
    (h : (applyAll (hashLibrary sortRoutes) "DEFAULT" {} [] history).toOption.isSome = true)
    (first : String) : Lists (listed sortRoutes first (history.getLastD []))
      (stateAfter sortRoutes history).aft := by
  obtain ⟨entries, hentries, haft⟩ := (holds_applyAll holds_start (applyAll_stateAfter h)).entries
  rw [haft]
  refine lists_of_perm (tidy_entriesForRoutes hentries) ?_
  rw [(entriesForRoutes_eq_ok_iff.mp hentries).2]
  exact filter_append_perm _ _

def tiedRoutes : List RouteOperation :=
  toyRoute 10 "i" :: (List.range 12).map fun n => toyRoute 11 ("i" ++ toString n)

end StarFabric.Gribi

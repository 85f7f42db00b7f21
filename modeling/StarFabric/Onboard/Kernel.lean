import StarFabric.Lib.Table
import StarFabric.Onboard.Routing

/-!
# The kernel under the fallback routes

The kernel keeps one route for each destination and metric: `ip route replace` overwrites it, and
`ip route del` takes it out if next hop and interface are the ones given. Two texts may name one
destination, so a `Reading` says what a prefix and a next hop are. At most one call fails, which is
given in advance (`Fault`). Any other call that would fail is refused.
-/

namespace StarFabric.Onboard
namespace Fallback

open EffectProgram ExceptFold Function KeyedTable List Nat

/-! ### The world -/

/-- How the kernel reads the texts of a route: the destination that a prefix names and the address
of a next hop. -/
structure Reading (δ γ : Type) where
  dest : String → δ
  gateway : String → γ

section Reading

variable {δ γ : Type} (K : Reading δ γ)

def Reading.key (route : FallbackRoute) : δ × ℕ := (K.dest route.cidr, route.metric)

def Reading.hop (route : FallbackRoute) : γ × String := (K.gateway route.via, route.interface)

def Reading.SameText (previous desired : List FallbackRoute) : Prop :=
  ∀ a ∈ previous, ∀ b ∈ desired, K.key b = K.key a → a.cidr = b.cidr

instance Reading.decidableSameText [DecidableEq δ] (previous desired : List FallbackRoute) :
    Decidable (K.SameText previous desired) :=
  inferInstanceAs (Decidable (∀ a ∈ previous, ∀ b ∈ desired, K.key b = K.key a → a.cidr = b.cidr))

end Reading

/-- The routes of the runtime in the kernel, the state file, and the number of `ip` commands that
were run. -/
structure World (δ γ : Type) where
  table : δ × ℕ → Option (γ × String)
  saved : Option NodeState
  commands : ℕ := 0

/-- The one thing that fails: an `ip` command, given by its number, or the save. -/
inductive Fault where
  | command (number : ℕ) (error : CommandError)
  | save (text : String) (replaced : Bool)
  deriving DecidableEq

def struck (fault : Option Fault) (number : ℕ) : Option CommandError :=
  match fault with
  | some (.command n error) => if n = number then some error else none
  | _ => none

theorem struck_none (number : ℕ) : struck none number = none := rfl

variable {δ γ : Type} [DecidableEq δ] [DecidableEq γ]

def World.replace (K : Reading δ γ) (fault : Option Fault) (route : FallbackRoute)
    (w : World δ γ) : Except CommandError Unit × World δ γ :=
  match struck fault w.commands with
  | some error => (.error error, { w with commands := w.commands + 1 })
  | none => (.ok (), { w with
      table := update w.table (K.key route) (some (K.hop route))
      commands := w.commands + 1 })

def World.del (K : Reading δ γ) (fault : Option Fault) (route : FallbackRoute) (w : World δ γ) :
    Option (Except CommandError Unit × World δ γ) :=
  match struck fault w.commands with
  | some error => some (.error error, { w with commands := w.commands + 1 })
  | none =>
    -- another route under the key is not taken out
    if w.table (K.key route) = some (K.hop route) then
      some (.ok (), { w with
        table := update w.table (K.key route) none, commands := w.commands + 1 })
    else none

def World.save (fault : Option Fault) (state : NodeState) (w : World δ γ) :
    Except String Unit × World δ γ :=
  match fault with
  -- the rename was done, and the sync of the directory fails
  | some (.save text true) => (.error text, { w with saved := some state })
  | some (.save text false) => (.error text, w)
  | _ => (.ok (), { w with saved := some state })

def handle (K : Reading δ γ) (fault : Option Fault) : Responder iface (World δ γ)
  | .replace route, w => some (w.replace K fault route)
  | .del route, w => w.del K fault route
  | .save state, w => some (w.save fault state)

variable {K : Reading δ γ} {fault : Option Fault} {routes : List FallbackRoute} {w w' : World δ γ}

theorem respond_replace (route : FallbackRoute) (w : World δ γ) :
    (Ask.replace route).respond (handle K fault) w = some (w.replace K fault route) :=
  Prog.respond_ask (I := iface) (.replace route) w

theorem respond_del (route : FallbackRoute) (w : World δ γ) :
    (Ask.del route).respond (handle K fault) w = w.del K fault route :=
  Prog.respond_ask (I := iface) (.del route) w

section Loop

variable {command : FallbackRoute → Prog iface (Except CommandError Unit)} {failed : String}
  {route : FallbackRoute} {rest : List FallbackRoute}

theorem forRoutes_dry (routes : List FallbackRoute) :
    forRoutes command failed true routes = pure (routes.forM validate) := by
  induction routes with
  | nil => rfl
  | cons route rest ih =>
    rw [forRoutes, show (route :: rest).forM validate = (do validate route; rest.forM validate)
      from rfl]
    cases hvalid : validate route with
    | error e => rfl
    | ok _ => exact ih

theorem forRoutes_invalid (hroute : ¬ route.Valid) :
    ∃ e, forRoutes command failed false (route :: rest) = pure (.error e) := by
  rw [forRoutes]
  cases hvalid : validate route with
  | error e => exact ⟨e, rfl⟩
  | ok _ => exact absurd hvalid hroute

theorem forRoutes_valid (hroute : route.Valid) :
    forRoutes command failed false (route :: rest) = command route >>= fun answer =>
      match answer with
      | .error e => pure (.error (e.text failed route))
      | .ok () => forRoutes command failed false rest := by
  rw [forRoutes, show validate route = .ok () from hroute]
  rfl

end Loop

theorem respond_apply (hcalm : ∀ number, struck fault number = none)
    (hvalid : ∀ route ∈ routes, route.Valid) (w : World δ γ) :
    ∃ commands, (apply false routes).respond (handle K fault) w = some (.ok (), { w with
        table := install K.key K.hop routes w.table, commands := commands }) := by
  -- route by route, as the loop goes
  induction routes generalizing w with
  | nil => exact ⟨w.commands, rfl⟩
  | cons route rest ih =>
    obtain ⟨hroute, hrest⟩ := forall_mem_cons.mp hvalid
    have hreplace : w.replace K fault route = (.ok (), { w with
        table := update w.table (K.key route) (some (K.hop route))
        commands := w.commands + 1 }) := by
      rw [World.replace, hcalm]
    obtain ⟨commands, hih⟩ := ih hrest (w.replace K fault route).2
    refine ⟨commands, ?_⟩
    rw [apply, forRoutes_valid hroute, Prog.respond_bind, respond_replace, hreplace]
    rw [hreplace] at hih
    exact hih

/-! ### Taking routes out -/

def Blocked (fault : Option Fault) (number : ℕ) (route : FallbackRoute) : Prop :=
  ¬ route.Valid ∨ struck fault number ≠ none

/-- How `remove` can end. The routes of `removed` were in the table and are taken out. Either they
are all, or the next one is blocked and the error is reported. -/
structure Removal (K : Reading δ γ) (fault : Option Fault) (routes : List FallbackRoute)
    (result : Except String Unit) (w w' : World δ γ) (removed rest : List FallbackRoute) :
    Prop where
  split : routes = removed ++ rest
  held : ∀ route ∈ removed, w.table (K.key route) = some (K.hop route)
  table : w'.table = withdraw K.key removed w.table
  saved : w'.saved = w.saved
  free : ∀ i route, removed[i]? = some route → ¬ Blocked fault (w.commands + i) route
  stop : rest = [] ∧ result = .ok () ∨ ∃ route tail e, rest = route :: tail ∧
    result = .error e ∧ Blocked fault (w.commands + removed.length) route

variable {route : FallbackRoute} {result : Except String Unit} {removed rest : List FallbackRoute}

omit [DecidableEq γ] in
theorem Removal.cons (hheld : w.table (K.key route) = some (K.hop route))
    (hfree : ¬ Blocked fault w.commands route)
    (h : Removal K fault routes result { w with
      table := update w.table (K.key route) none
      commands := w.commands + 1 } w' removed rest) :
    Removal K fault (route :: routes) result w w' (route :: removed) rest where
  split := by rw [h.split, cons_append]
  held := by
    refine forall_mem_cons.mpr ⟨hheld, fun other hother => ?_⟩
    have hafter : update w.table (K.key route) none (K.key other) = some (K.hop other) :=
      h.held other hother
    -- a key that was emptied cannot be emptied again
    by_cases hkey : K.key other = K.key route
    · rw [hkey, update_self] at hafter
      cases hafter
    · rwa [update_of_ne hkey] at hafter
  table := h.table.trans (withdraw_cons route removed w.table)
  saved := h.saved
  free := by
    intro i other hother
    cases i with
    | zero =>
      cases hother
      exact hfree
    | succ i =>
      rw [add_comm i 1, ← add_assoc]
      exact h.free i other hother
  stop := by
    rw [length_cons, add_comm removed.length 1, ← add_assoc]
    exact h.stop

variable {e : String}

omit [DecidableEq γ] in
theorem removal_blocked (hblocked : Blocked fault w.commands route) (htable : w'.table = w.table)
    (hsaved : w'.saved = w.saved) :
    Removal K fault (route :: routes) (.error e) w w' [] (route :: routes) where
  split := rfl
  held := nofun
  table := htable.trans (withdraw_nil _).symm
  saved := hsaved
  free := nofun
  stop := .inr ⟨route, routes, e, rfl, rfl, hblocked⟩

omit [DecidableEq γ] in
theorem Removal.table_eq_iff (h : Removal K fault routes result w w' removed rest) :
    w'.table = w.table ↔ removed = [] := by
  cases removed with
  | nil => exact iff_of_true (h.table.trans (withdraw_nil _)) rfl
  | cons first others =>
    -- the first route was in the table and is not any more
    refine iff_of_false (fun htable => ?_) (cons_ne_nil first others)
    have hheld := h.held first mem_cons_self
    rw [← htable, h.table, withdraw_eq_some] at hheld
    exact hheld.1 first mem_cons_self rfl

omit [DecidableEq γ] in
theorem Removal.stopped (h : Removal K fault routes (.error e) w w' removed rest) :
    ∃ route, routes[removed.length]? = some route ∧
      Blocked fault (w.commands + removed.length) route := by
  obtain ⟨-, hok⟩ | ⟨route, tail, -, rfl, -, hblocked⟩ := h.stop
  · cases hok
  · refine ⟨route, ?_, hblocked⟩
    rw [h.split, getElem?_append_right (Nat.le_refl _), Nat.sub_self]
    rfl

theorem respond_remove
    (hrun : (remove false routes).respond (handle K fault) w = some (result, w')) :
    ∃ removed rest, Removal K fault routes result w w' removed rest := by
  induction routes generalizing w with
  | nil =>
    cases hrun
    exact ⟨[], [], rfl, nofun, (withdraw_nil _).symm, rfl, nofun, .inl ⟨rfl, rfl⟩⟩
  | cons route rest ih =>
    -- the first route: the check, then the command
    by_cases hroute : route.Valid
    · rw [remove, forRoutes_valid hroute, Prog.respond_bind_eq_some] at hrun
      obtain ⟨answer, w₁, hdel, hrest⟩ := hrun
      rw [respond_del, World.del] at hdel
      cases hstruck : struck fault w.commands with
      | some error =>
        -- the command fails and leaves the table alone
        rw [hstruck] at hdel
        cases hdel
        cases hrest
        have hblocked : Blocked fault w.commands route := by
          refine .inr ?_
          rw [hstruck]
          exact Option.some_ne_none error
        exact ⟨[], route :: rest, removal_blocked hblocked rfl rfl⟩
      | none =>
        rw [hstruck] at hdel
        -- a command that is not the given one does not fail, so the route was there
        split_ifs at hdel with hheld
        cases hdel
        obtain ⟨removed, tail, h⟩ := ih hrest
        have hfree : ¬ Blocked fault w.commands route := not_or.mpr ⟨not_not.mpr hroute,
          not_not.mpr hstruck⟩
        exact ⟨route :: removed, tail, h.cons hheld hfree⟩
    · obtain ⟨e, hstop⟩ : ∃ e, remove false (route :: rest) = pure (.error e) :=
        forRoutes_invalid hroute
      rw [hstop] at hrun
      cases hrun
      exact ⟨[], route :: rest, removal_blocked (.inl hroute) rfl rfl⟩

/-! ### When nothing fails -/

theorem respond_remove_valid (hvalid : ∀ route ∈ routes, route.Valid)
    (hrun : (remove false routes).respond (handle K none) w = some (result, w')) :
    result = .ok () ∧ w'.table = withdraw K.key routes w.table ∧ w'.saved = w.saved := by
  obtain ⟨removed, rest, h⟩ := respond_remove hrun
  obtain ⟨rfl, hok⟩ | ⟨route, tail, e, rfl, -, hblocked⟩ := h.stop
  · rw [h.split, append_nil]
    exact ⟨hok, h.table, h.saved⟩
  · have hmem : route ∈ routes := by
      rw [h.split]
      exact mem_append_right removed mem_cons_self
    rcases hblocked with hinvalid | hhit
    · exact absurd (hvalid route hmem) hinvalid
    · exact absurd rfl hhit

section Transition

variable {previous desired : List FallbackRoute}

variable {route : FallbackRoute}

theorem mem_changedRoutes :
    route ∈ changedRoutes previous desired ↔ route ∈ desired ∧ route ∉ previous := by
  unfold changedRoutes
  rw [mem_filter, Bool.not_eq_true', contains_eq_mem, decide_eq_false_iff_not]

omit [DecidableEq δ] [DecidableEq γ] in
/-- Where a destination is written in one way, the routes without a route of the same key in the
new list are those whose key is gone. -/
theorem mem_obsoleteRoutes (hsame : K.SameText previous desired) :
    route ∈ obsoleteRoutes previous desired ↔
      route ∈ previous ∧ ∀ other ∈ desired, K.key other ≠ K.key route := by
  unfold obsoleteRoutes
  rw [mem_filter, Bool.not_eq_true', any_eq_false]
  refine and_congr_right fun hmem => forall₂_congr fun other hother => not_congr ?_
  unfold sameKey
  rw [Bool.and_eq_true, beq_iff_eq, beq_iff_eq]
  constructor
  · rintro ⟨hcidr, hmetric⟩
    exact Prod.ext (congrArg K.dest hcidr.symm) hmetric.symm
  · intro hkey
    exact ⟨hsame route hmem other hother hkey, (congrArg Prod.snd hkey).symm⟩

/-- **`transition` follows the routes wanted.** It ends with an error only if they do not pass the
check, and then it has done nothing. -/
theorem respond_transition {result : Except TransitionError Unit}
    (hheld : Holds K.key K.hop w.table previous) (hprevious : ∀ route ∈ previous, route.Valid)
    (hfun : Functional K.key K.hop desired) (hsame : K.SameText previous desired)
    (hrun : (transition false previous desired).respond (handle K none) w = some (result, w')) :
    (∃ e, result = .error e ∧ w' = w) ∨
      result = .ok () ∧ w'.saved = w.saved ∧ (∀ route ∈ desired, route.Valid) ∧
        Holds K.key K.hop w'.table desired := by
  unfold transition at hrun
  cases hcheck : desired.forM validate with
  | error e =>
    rw [hcheck] at hrun
    cases hrun
    exact .inl ⟨_, rfl, rfl⟩
  | ok _ =>
    have hvalid := forM_eq_ok_iff.mp hcheck
    rw [hcheck] at hrun
    obtain ⟨moved, w₂, hmove, hrest⟩ := Prog.respond_bind_eq_some.mp hrun
    obtain ⟨applied, w₁, happly, hremove⟩ := Prog.respond_bind_eq_some.mp hmove
    have hchanged : ∀ route ∈ changedRoutes previous desired, route.Valid := fun route hroute =>
      hvalid route (mem_changedRoutes.mp hroute).1
    -- the new routes are written, and the old ones whose key is gone are withdrawn
    obtain ⟨commands, hdone⟩ := respond_apply (K := K) struck_none hchanged w
    cases hdone.symm.trans happly
    have hobsolete : ∀ route ∈ obsoleteRoutes previous desired, route.Valid := fun route hroute =>
      hprevious route ((mem_obsoleteRoutes hsame).mp hroute).1
    obtain ⟨rfl, htable, hsaved⟩ := respond_remove_valid hobsolete hremove
    cases hrest
    refine .inr ⟨rfl, hsaved, hvalid, ?_⟩
    rw [htable]
    exact hheld.follow hfun (fun _ => mem_changedRoutes) fun _ => mem_obsoleteRoutes hsame

end Transition

end Fallback
end StarFabric.Onboard

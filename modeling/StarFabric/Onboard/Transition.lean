import StarFabric.Onboard.Reconnect

/-!
# A transition that fails

`transition` of `onboard/src/routing.rs` undoes a failed move in two loops: it writes the previous
routes again, and then removes the new ones, up to the first that cannot be removed. The new routes
are removed in the order in which they were written, so those that were written come first, and the
loop stops where nothing is left to do (`transition_all_or_nothing`).
-/

namespace StarFabric.Onboard
namespace Fallback

open EffectProgram KeyedTable ExceptFold Function List

/-- The `ip` commands on a table that is keyed by the texts of prefix and metric. A route that is
not there cannot be removed, and no other command fails but the one that is given. -/
def kernel (fault : Option Fault) : Handler iface (World String String)
  | .replace route, w => w.replace plain fault route
  | .del route, w => (w.del plain fault route).getD
      (.error .status, { w with commands := w.commands + 1 })
  | .save state, w => w.save fault state

/-- On the keys of both lists the table holds exactly `routes`. -/
def HoldsOn (previous desired : List FallbackRoute) (table : String × ℕ → Option (String × String))
    (routes : List FallbackRoute) : Prop :=
  ∀ key ∈ (previous ++ desired).map plain.key, ∀ hop, table key = some hop ↔
    ∃ route ∈ routes, plain.key route = key ∧ plain.hop route = hop

/-- The command that fails is behind. -/
def Spent (fault : Option Fault) (w : World String String) : Prop :=
  ∀ number, w.commands ≤ number → struck fault number = none

variable {fault : Option Fault} {w w' : World String String} {routes : List FallbackRoute}
  {result : Except String Unit}

theorem spent_of_struck {e : CommandError} (h : struck fault w.commands = some e) :
    Spent fault { w with commands := w.commands + 1 } := by
  intro number hnumber
  unfold struck at h ⊢
  split at h
  · split_ifs at h with hn
    exact if_neg (hn.trans_lt hnumber).ne
  · cases h

/-! ### A loop over routes -/

/-- What a loop does that puts `entry route` under the key of each route: it gets to the end, or it
stops at a route that is invalid, whose command was made to fail, or that is `Absent`. -/
structure Loop (fault : Option Fault) (entry : FallbackRoute → Option (String × String))
    (Absent : FallbackRoute → World String String → Prop) (routes : List FallbackRoute)
    (w : World String String) (result : Except String Unit) (w' : World String String)
    (done rest : List FallbackRoute) : Prop where
  split : routes = done ++ rest
  valid : ∀ route ∈ done, route.Valid
  changed : ∀ route ∈ done, w'.table (plain.key route) = entry route
  kept : ∀ key ∉ done.map plain.key, w'.table key = w.table key
  later : w.commands ≤ w'.commands
  stop : rest = [] ∧ result = .ok () ∨ ∃ route tail e, rest = route :: tail ∧ result = .error e ∧
    (¬ route.Valid ∨ ¬ Spent fault w ∧ Spent fault w' ∨ Absent route w')

def Obeys (fault : Option Fault) (entry : FallbackRoute → Option (String × String))
    (Absent : FallbackRoute → World String String → Prop)
    (command : FallbackRoute → Prog iface (Except CommandError Unit)) : Prop :=
  ∀ route w, (command route).run (kernel fault) w = (.ok (), { w with
      table := update w.table (plain.key route) (entry route)
      commands := w.commands + 1 }) ∨
    ∃ e, (command route).run (kernel fault) w = (.error e, { w with commands := w.commands + 1 }) ∧
      (struck fault w.commands = some e ∨ Absent route { w with commands := w.commands + 1 })

abbrev Replacing (fault : Option Fault) :=
  Loop fault (fun route => some (plain.hop route)) fun _ _ => False

abbrev Removing (fault : Option Fault) :=
  Loop fault (fun _ => none) fun route w => w.table (plain.key route) ≠ some (plain.hop route)

theorem obeys_replace : Obeys fault (fun route => some (plain.hop route)) (fun _ _ => False)
    Ask.replace := by
  intro route w
  show w.replace plain fault route = _ ∨ ∃ e, w.replace plain fault route = _ ∧ _
  unfold World.replace
  cases hstruck : struck fault w.commands with
  | none => exact .inl rfl
  | some e => exact .inr ⟨e, rfl, .inl rfl⟩

theorem obeys_del : Obeys fault (fun _ => none)
    (fun route w => w.table (plain.key route) ≠ some (plain.hop route)) Ask.del := by
  intro route w
  show (w.del plain fault route).getD _ = _ ∨ ∃ e, (w.del plain fault route).getD _ = _ ∧ _
  unfold World.del
  cases hstruck : struck fault w.commands with
  | none =>
    by_cases hheld : w.table (plain.key route) = some (plain.hop route)
    · exact .inl (by rw [if_pos hheld]; rfl)
    · exact .inr ⟨.status, by rw [if_neg hheld]; rfl, .inr hheld⟩
  | some e => exact .inr ⟨e, rfl, .inl rfl⟩

theorem run_forRoutes {entry : FallbackRoute → Option (String × String)}
    {Absent : FallbackRoute → World String String → Prop}
    {command : FallbackRoute → Prog iface (Except CommandError Unit)} {failed : String}
    (hcommand : Obeys fault entry Absent command) (hnodup : (routes.map plain.key).Nodup)
    (hrun : (forRoutes command failed false routes).run (kernel fault) w = (result, w')) :
    ∃ done rest, Loop fault entry Absent routes w result w' done rest := by
  induction routes generalizing w with
  | nil =>
    cases hrun
    exact ⟨[], [], rfl, nofun, nofun, fun _ _ => rfl, le_rfl, .inl ⟨rfl, rfl⟩⟩
  | cons route others ih =>
    obtain ⟨hnew, hnodup⟩ := nodup_cons.mp hnodup
    by_cases hvalid : route.Valid
    · rw [forRoutes_valid hvalid, Prog.run_bind] at hrun
      rcases hcommand route w with hok | ⟨e, herror, hreason⟩
      · rw [hok] at hrun
        obtain ⟨done, rest, h⟩ := ih hnodup hrun
        have hmono : Spent fault w → Spent fault { w with
            table := update w.table (plain.key route) (entry route)
            commands := w.commands + 1 } := fun hspent number hle =>
          hspent number (Nat.le_of_succ_le hle)
        refine ⟨route :: done, rest, by rw [h.split, cons_append],
          forall_mem_cons.mpr ⟨hvalid, h.valid⟩,
          forall_mem_cons.mpr ⟨?_, h.changed⟩, fun key hkey => ?_, Nat.le_of_succ_le h.later, ?_⟩
        · rw [h.kept _ fun hmem => hnew ?_]
          · exact update_self _ _ _
          · rw [h.split, map_append]
            exact mem_append_left _ hmem
        · rw [map_cons, mem_cons, not_or] at hkey
          rw [h.kept key hkey.2]
          exact update_of_ne hkey.1 _ _
        · have hstop := h.stop
          grind
      · rw [herror] at hrun
        cases hrun
        refine ⟨[], _, rfl, nofun, nofun, fun _ _ => rfl, Nat.le_succ _, .inr ⟨route, others, _, rfl,
          rfl, .inr ?_⟩⟩
        rcases hreason with hstruck | habsent
        · exact .inl ⟨fun h => Option.some_ne_none e (hstruck.symm.trans (h _ le_rfl)),
            spent_of_struck hstruck⟩
        · exact .inr habsent
    · obtain ⟨e, hstop⟩ : ∃ e, forRoutes command failed false (route :: others) = pure (.error e) :=
        forRoutes_invalid hvalid
      rw [hstop] at hrun
      cases hrun
      exact ⟨[], _, rfl, nofun, nofun, fun _ _ => rfl, le_rfl, .inr ⟨route, others, e, rfl, rfl,
        .inl hvalid⟩⟩

theorem run_apply (hnodup : (routes.map plain.key).Nodup)
    (hrun : (apply false routes).run (kernel fault) w = (result, w')) :
    ∃ done rest, Replacing fault routes w result w' done rest :=
  run_forRoutes obeys_replace hnodup hrun

theorem run_remove (hnodup : (routes.map plain.key).Nodup)
    (hrun : (remove false routes).run (kernel fault) w = (result, w')) :
    ∃ done rest, Removing fault routes w result w' done rest :=
  run_forRoutes obeys_del hnodup hrun

section Transition

variable {previous desired : List FallbackRoute}

theorem sameText_plain : plain.SameText previous desired := fun _ _ _ _ h =>
  (congrArg Prod.fst h).symm

theorem nodup_changed (h : (desired.map plain.key).Nodup) :
    ((changedRoutes previous desired).map plain.key).Nodup :=
  h.sublist (filter_sublist.map _)

theorem nodup_obsolete (h : (previous.map plain.key).Nodup) :
    ((obsoleteRoutes previous desired).map plain.key).Nodup :=
  h.sublist (filter_sublist.map _)

theorem Loop.frame {entry : FallbackRoute → Option (String × String)}
    {Absent : FallbackRoute → World String String → Prop} {done rest : List FallbackRoute}
    {key : String × ℕ} (h : Loop fault entry Absent routes w result w' done rest)
    (hkey : key ∉ routes.map plain.key) : w'.table key = w.table key := by
  refine h.kept key fun hmem => hkey ?_
  rw [h.split, map_append]
  exact mem_append_left _ hmem

/-- What the move has done when it stops: it has written `done` and touched nothing else but keys of
the previous routes. -/
structure Moved (previous : List FallbackRoute) (w w' : World String String)
    (done : List FallbackRoute) : Prop where
  written : ∀ route ∈ done, plain.key route ∉ previous.map plain.key →
    w'.table (plain.key route) = some (plain.hop route)
  kept : ∀ key ∉ previous.map plain.key, key ∉ done.map plain.key → w'.table key = w.table key

theorem run_applyAndRemove (hprevious : (previous.map plain.key).Nodup)
    (hdesired : (desired.map plain.key).Nodup) (hvalid : ∀ route ∈ desired, route.Valid)
    (hheld : HoldsOn previous desired w.table previous)
    (hrun : (applyAndRemove false (changedRoutes previous desired)
      (obsoleteRoutes previous desired)).run (kernel fault) w = (result, w')) :
    ∃ done rest, changedRoutes previous desired = done ++ rest ∧ Moved previous w w' done ∧
      ((result = .ok () ∧ HoldsOn previous desired w'.table desired) ∨
        (∃ e, result = .error e) ∧ ((∃ route ∈ previous, ¬ route.Valid) ∨ Spent fault w')) := by
  rw [applyAndRemove, Prog.run_bind] at hrun
  generalize happly : (apply false _).run (kernel fault) w = applied at hrun
  obtain ⟨applied, w₁⟩ := applied
  obtain ⟨done, rest, h₁⟩ := run_apply (nodup_changed hdesired) happly
  have hchanged : ∀ route ∈ done ++ rest, route ∈ desired ∧ route ∉ previous := fun route hroute =>
    mem_changedRoutes.mp (h₁.split ▸ hroute)
  refine ⟨done, rest, h₁.split, ?_⟩
  rcases h₁.stop with ⟨rfl, rfl⟩ | ⟨route, tail, e, rfl, rfl, hstop⟩
  · obtain ⟨gone, left, h₂⟩ := run_remove (nodup_obsolete hprevious) hrun
    have hobsolete : ∀ route, route ∈ gone ++ left ↔ route ∈ previous ∧
        ∀ other ∈ desired, plain.key other ≠ plain.key route := by
      intro route
      rw [← h₂.split, mem_obsoleteRoutes sameText_plain]
    have hsame : ∀ route, route ∈ done ↔ route ∈ desired ∧ route ∉ previous := by
      intro route
      rw [← mem_changedRoutes, h₁.split, append_nil]
    refine ⟨⟨fun route hroute hkey => ?_, fun key hkey hdone => ?_⟩, ?_⟩
    · rw [h₂.kept _ (by grind), h₁.changed route hroute]
    · rw [h₂.kept _ (by grind), h₁.kept key hdone]
    · rcases h₂.stop with ⟨rfl, rfl⟩ | ⟨route, tail, e, rfl, rfl, hstop⟩
      · refine .inl ⟨rfl, fun key hkey hop => ?_⟩
        have hwas := hheld key hkey hop
        have hone : ∀ a ∈ desired, ∀ b ∈ desired, plain.key a = plain.key b → a = b :=
          fun a ha b hb => inj_on_of_nodup_map hdesired ha hb
        have hold : ∀ a ∈ previous, ∀ b ∈ previous, plain.key a = plain.key b → a = b :=
          fun a ha b hb => inj_on_of_nodup_map hprevious ha hb
        obtain ⟨route, hroute, rfl⟩ := mem_map.mp hkey
        by_cases hnew : ∃ other ∈ desired, plain.key other = plain.key route
        · obtain ⟨other, hother, heq⟩ := hnew
          have hkept : plain.key route ∉ gone.map plain.key := by grind
          rw [h₂.kept _ hkept]
          by_cases hdone : other ∈ done
          · rw [← heq, h₁.changed other hdone]
            grind
          · rw [h₁.kept _ (by grind), hwas]
            grind
        · have hgone : route ∈ gone := by grind
          rw [h₂.changed route hgone]
          grind
      · refine .inr ⟨⟨e, rfl⟩, ?_⟩
        have hroute := (hobsolete route).mp (by simp)
        have hthere : w'.table (plain.key route) = some (plain.hop route) := by
          have hnodup : ((gone ++ route :: tail).map plain.key).Nodup :=
            h₂.split ▸ nodup_obsolete hprevious
          rw [h₂.kept _ (by grind), h₁.kept _ (by grind)]
          exact (hheld _ (by grind) _).mpr ⟨route, hroute.1, rfl, rfl⟩
        grind
  · cases hrun
    refine ⟨⟨fun route hroute _ => h₁.changed route hroute, fun key _ => h₁.kept key⟩,
      .inr ⟨⟨e, rfl⟩, ?_⟩⟩
    grind

/-- In a list that was cut in two, and of which some were left out, what comes before an element of
the first part is in the first part. -/
theorem mem_of_before {α : Type} {l done rest first last : List α} {p : α → Bool} {a b : α}
    (hnodup : l.Nodup) (hl : l = done ++ rest) (hp : l.filter p = first ++ a :: last)
    (hb : b ∈ a :: last) (hdone : b ∈ done) : a ∈ done := by
  subst hl
  rw [filter_append] at hp
  have hrest : b ∉ rest := fun h => (nodup_append.mp hnodup).2.2 b hdone b h rfl
  rcases append_eq_append_iff.mp hp with ⟨c, -, hc⟩ | ⟨c, hc, hlast⟩
  · have hmem : b ∈ rest.filter p := hc ▸ mem_append_right _ hb
    exact absurd (mem_of_mem_filter hmem) hrest
  · cases c with
    | nil =>
      have hmem : b ∈ rest.filter p := by
        rw [← nil_append (rest.filter p), ← hlast]
        exact hb
      exact absurd (mem_of_mem_filter hmem) hrest
    | cons c cs =>
      have hmem : a ∈ done.filter p := by
        rw [hc, (cons.inj hlast).1]
        exact mem_append_right _ mem_cons_self
      exact mem_of_mem_filter hmem

theorem run_undo (hprevious : (previous.map plain.key).Nodup)
    (hdesired : (desired.map plain.key).Nodup) (hvalid : ∀ route ∈ desired, route.Valid)
    (hheld : HoldsOn previous desired w.table previous) {w₁ w₂ w₃ : World String String}
    {done rest gone left : List FallbackRoute}
    (hdone : changedRoutes previous desired = done ++ rest)
    (hmoved : Moved previous w w₁ done) (hspent : Spent fault w₁)
    (h₂ : Replacing fault previous w₁ (.ok ()) w₂ previous [])
    (h₃ : Removing fault (obsoleteRoutes desired previous) w₂ result w₃ gone left) :
    HoldsOn previous desired w₃.table previous := by
  have hnew : ∀ route, route ∈ gone ++ left ↔ route ∈ desired ∧
      ∀ other ∈ previous, plain.key other ≠ plain.key route := by
    intro route
    rw [← h₃.split, mem_obsoleteRoutes sameText_plain]
  have hmine : ∀ route ∈ done, route ∈ desired := fun route hroute =>
    (mem_changedRoutes.mp (hdone ▸ mem_append_left _ hroute)).1
  have hone : ∀ a ∈ desired, ∀ b ∈ desired, plain.key a = plain.key b → a = b :=
    fun a ha b hb => inj_on_of_nodup_map hdesired ha hb
  -- what is not gone yet was never written
  have hleft : ∀ route ∈ left, route ∉ gone → route ∉ done := by
    intro route hroute _ hwritten
    rcases h₃.stop with ⟨rfl, -⟩ | ⟨first, tail, e, rfl, -, hstop⟩
    · cases hroute
    have hfilter : (changedRoutes previous desired).filter (fun r => !previous.any fun n =>
        sameKey r n) = gone ++ first :: tail := by
      rw [← h₃.split]
      unfold obsoleteRoutes changedRoutes
      rw [filter_filter]
      refine filter_congr fun r hr => ?_
      grind [sameKey]
    have hmem : first ∈ done := mem_of_before
      ((hdesired.of_map _).sublist filter_sublist) hdone hfilter hroute hwritten
    have hnodup : ((gone ++ first :: tail).map plain.key).Nodup :=
      h₃.split ▸ nodup_obsolete hdesired
    have hthere : w₃.table (plain.key first) = some (plain.hop first) := by
      rw [h₃.kept _ (by grind), h₂.kept _ (by grind)]
      exact hmoved.written first hmem (by grind)
    have hlater : Spent fault w₂ := fun number hle => hspent number (h₂.later.trans hle)
    grind
  intro key hkey hop
  by_cases hold : ∃ route ∈ previous, plain.key route = key
  · obtain ⟨route, hroute, rfl⟩ := hold
    rw [h₃.kept _ (by grind), h₂.changed route (by grind)]
    have huniq : ∀ a ∈ previous, plain.key a = plain.key route → a = route := fun a ha heq =>
      inj_on_of_nodup_map hprevious ha hroute heq
    grind
  · have hwas := hheld key hkey hop
    obtain ⟨route, hroute, rfl⟩ := mem_map.mp hkey
    by_cases hgone : route ∈ gone
    · rw [h₃.changed route hgone]
      grind
    · rw [h₃.kept _ (by grind), h₂.kept _ (by grind), hmoved.kept _ (by grind) (by grind)]
      exact hwas

/-- **All or nothing.** A transition that succeeds leaves exactly the routes wanted on the keys of
both lists. One that reports an error leaves exactly the previous ones, if these could be written
again. Other routes are not touched. -/
theorem transition_all_or_nothing (hprevious : (previous.map plain.key).Nodup)
    (hdesired : (desired.map plain.key).Nodup) (hheld : HoldsOn previous desired w.table previous)
    {result : Except TransitionError Unit}
    (hrun : (transition false previous desired).run (kernel fault) w = (result, w')) :
    (result = .ok () → HoldsOn previous desired w'.table desired) ∧
      (∀ e, result = .error e → e.restored = .ok () → HoldsOn previous desired w'.table previous) ∧
      ∀ key ∉ (previous ++ desired).map plain.key, w'.table key = w.table key := by
  unfold transition at hrun
  cases hcheck : desired.forM validate with
  | error e =>
    rw [hcheck] at hrun
    cases hrun
    exact ⟨nofun, fun _ _ _ => hheld, fun _ _ => rfl⟩
  | ok _ =>
    have hvalid := forM_eq_ok_iff.mp hcheck
    rw [hcheck] at hrun
    rw [Prog.run_bind] at hrun
    generalize hmove : (applyAndRemove false _ _).run (kernel fault) w = moved at hrun
    obtain ⟨moved, w₁⟩ := moved
    obtain ⟨done, rest, hdone, hmoved, hend⟩ :=
      run_applyAndRemove hprevious hdesired hvalid hheld hmove
    have hframe : ∀ key ∉ (previous ++ desired).map plain.key, w₁.table key = w.table key := by
      intro key hkey
      have hmine : ∀ route ∈ done, route ∈ desired := fun route hroute =>
        (mem_changedRoutes.mp (hdone ▸ mem_append_left _ hroute)).1
      exact hmoved.kept key (by grind) (by grind)
    rcases hend with ⟨rfl, hholds⟩ | ⟨⟨e, rfl⟩, hreason⟩
    · cases hrun
      exact ⟨fun _ => hholds, nofun, hframe⟩
    · dsimp only at hrun
      rw [Prog.run_bind, Prog.run_bind] at hrun
      generalize hrestore : (apply false previous).run (kernel fault) w₁ = restored at hrun
      obtain ⟨restored, w₂⟩ := restored
      generalize hremove : (remove false _).run (kernel fault) _ = removed at hrun
      cases hrun
      obtain ⟨all, none, h₂⟩ := run_apply hprevious hrestore
      obtain ⟨gone, left, h₃⟩ := run_remove (nodup_obsolete hdesired) hremove
      refine ⟨nofun, fun e he hok => ?_, fun key hkey => ?_⟩
      · cases he
        subst hok
        obtain ⟨rfl, -⟩ | ⟨_, _, _, -, hok, -⟩ := h₂.stop
        · obtain rfl : previous = all := h₂.split.trans (append_nil all)
          rcases hreason with ⟨route, hroute, hinvalid⟩ | hspent
          · exact absurd (h₂.valid route hroute) hinvalid
          · exact run_undo hprevious hdesired hvalid hheld hdone hmoved hspent h₂ h₃
        · cases hok
      · rw [h₃.frame fun hmem => hkey ?_, h₂.frame fun hmem => hkey ?_, hframe key hkey]
        · rw [map_append]
          exact mem_append_left _ hmem
        · rw [map_append]
          exact mem_append_right _ ((filter_sublist.map _).subset hmem)

/-- The first route is in force and the second one is wanted. The removal of the first one fails,
and the second one is taken out again. -/
theorem transition_all_or_nothing_undone :
    ((transition false [firstRoute] [secondRoute]).run (kernel (some (.command 1 .status)))
      ⟨install plain.key plain.hop [firstRoute] fun _ => none, none, 0⟩).1.toOption = none ∧
    HoldsOn [firstRoute] [secondRoute] ((transition false [firstRoute] [secondRoute]).run
      (kernel (some (.command 1 .status)))
      ⟨install plain.key plain.hop [firstRoute] fun _ => none, none, 0⟩).2.table [firstRoute] := by
  have hheld : HoldsOn [firstRoute] [secondRoute]
      (install plain.key plain.hop [firstRoute] fun _ => none) [firstRoute] := by
    intro key _ hop
    rw [install_eq_some (by decide)]
    simp
  refine ⟨by decide +kernel, ?_⟩
  generalize hrun : (transition false [firstRoute] [secondRoute]).run
    (kernel (some (.command 1 .status))) _ = out
  have hrestored : Except.casesOn (motive := fun _ => Option Unit) out.1
      (fun e => e.restored.toOption) (fun _ => none) = some () := by
    rw [← hrun]
    decide +kernel
  obtain ⟨result, w'⟩ := out
  have h := transition_all_or_nothing (by decide) (by decide) hheld hrun
  cases result with
  | error e => exact h.2.1 e rfl (eq_ok_of_toOption hrestored)
  | ok _ => cases hrestored

end Transition

end Fallback
end StarFabric.Onboard

import StarFabric.Onboard.Kernel

/-!
# A reconnect that fails

`connectivity` takes the fallback routes out before it writes the new state. A save that fails is
undone by putting the routes back. A removal that fails is not undone, and a save may fail after it
has replaced the file. These are the only two ways (`LosesRoutes`, `SavesAnyway`) in which a failing
request changes anything.
-/

namespace StarFabric.Onboard
namespace Fallback

open EffectProgram ExceptFold KeyedTable List Nat Option

variable {δ γ : Type} [DecidableEq δ] [DecidableEq γ] {K : Reading δ γ} {fault : Option Fault}
  {dryRun : Bool} {req : Connectivity} {now : ℕ} {state state' : NodeState} {w w' : World δ γ}

/-! ### What can go wrong -/

def LosesRoutes (dryRun : Bool) (fault : Option Fault) (req : Connectivity) (state : NodeState) :
    Prop :=
  state.generation < req.generation ∧ (req.connected && state.fallbackActive) = true ∧
    dryRun = false ∧
    (∃ route, state.fallbackRoutes[0]? = some route ∧ ¬ Blocked fault 0 route) ∧
    ∃ i route, 0 < i ∧ state.fallbackRoutes[i]? = some route ∧ Blocked fault i route

def SavesAnyway (fault : Option Fault) (req : Connectivity) (now : ℕ) (state : NodeState)
    (saved : Option NodeState) : Prop :=
  state.generation < req.generation ∧
    ((req.connected && state.fallbackActive) = true → ∀ route ∈ state.fallbackRoutes, route.Valid) ∧
    (∃ text, fault = some (.save text true)) ∧ saved ≠ some (state.contact req now)

/-! ### How the handler fails -/

/-- The routes are taken out if the node has any in force and the controller is back. -/
def takeOut (dryRun : Bool) (req : Connectivity) (state : NodeState) :
    Prog iface (Except String Unit) :=
  if req.connected && state.fallbackActive then remove dryRun state.fallbackRoutes
  else pure (.ok ())

def putBack (dryRun : Bool) (req : Connectivity) (state : NodeState) :
    Prog iface (Except String Unit) :=
  if req.connected && state.fallbackActive then apply dryRun state.fallbackRoutes
  else pure (.ok ())

variable {text : String} {w₁ : World δ γ}

omit [DecidableEq δ] [DecidableEq γ] in
theorem fault_of_save (h : w.save fault state = (.error text, w₁)) :
    ∃ replaced, fault = some (.save text replaced) ∧
      w₁ = { w with saved := if replaced then some state else w.saved } := by
  unfold World.save at h
  split at h
  · obtain ⟨htext, rfl⟩ := Prod.mk.inj h
    cases htext
    exact ⟨true, rfl, rfl⟩
  · obtain ⟨htext, rfl⟩ := Prod.mk.inj h
    cases htext
    exact ⟨false, rfl, rfl⟩
  · cases (Prod.mk.inj h).1

/-- A new request fails when the routes cannot be taken out, or after they were when the state
cannot be saved. -/
theorem respond_connectivity_error {e : StatusCode × String}
    (hnew : state.generation < req.generation)
    (hrun : (connectivity dryRun req now state).respond (handle K fault) w =
      some ((state', .error e), w')) :
    state' = state ∧
      ((∃ text, (takeOut dryRun req state).respond (handle K fault) w = some (.error text, w')) ∨
        ∃ w₁ text replaced restore,
          (takeOut dryRun req state).respond (handle K fault) w = some (.ok (), w₁) ∧
          fault = some (.save text replaced) ∧
          (putBack dryRun req state).respond (handle K fault) { w₁ with
            saved := if replaced then some (state.contact req now) else w₁.saved } =
              some (restore, w')) := by
  rw [connectivity, if_neg (not_le.mpr hnew), Prog.respond_bind_eq_some] at hrun
  obtain ⟨result, w₁, htake, hrest⟩ := hrun
  cases result with
  | error text =>
    obtain ⟨hstate, rfl⟩ := Prod.mk.inj (Option.some.inj hrest)
    exact ⟨(Prod.mk.inj hstate).1.symm, .inl ⟨text, htake⟩⟩
  | ok _ =>
    obtain ⟨answer, w₂, hsave, hrest⟩ := Prog.respond_bind_eq_some.mp hrest
    cases answer with
    | ok _ =>
      -- the request is accepted
      obtain ⟨hstate, -⟩ := Prod.mk.inj (Option.some.inj hrest)
      cases (Prod.mk.inj hstate).2
    | error text =>
      obtain ⟨replaced, hfault, rfl⟩ := fault_of_save (Option.some.inj hsave)
      obtain ⟨restore, w₃, hback, hrest⟩ := Prog.respond_bind_eq_some.mp hrest
      obtain ⟨hstate, rfl⟩ := Prod.mk.inj (Option.some.inj hrest)
      exact ⟨(Prod.mk.inj hstate).1.symm, .inr ⟨w₁, text, replaced, restore, htake, hfault, hback⟩⟩

/-- Routes that cannot be taken out leave the file alone. They leave the table alone unless some
are lost, and the save is not reached. -/
theorem takeOut_error (now : ℕ) (hw : w.commands = 0) (hnew : state.generation < req.generation)
    (hrun : (takeOut dryRun req state).respond (handle K fault) w = some (.error text, w')) :
    w'.saved = w.saved ∧ (w'.table = w.table ↔ ¬ LosesRoutes dryRun fault req state) ∧
      ¬ SavesAnyway fault req now state w.saved := by
  unfold takeOut at hrun
  split_ifs at hrun with htakes
  · cases dryRun with
    | true =>
      -- a dry run stops at a route that does not pass the check
      rw [remove, forRoutes_dry] at hrun
      obtain ⟨hinvalid, rfl⟩ := Prod.mk.inj (Option.some.inj hrun)
      refine ⟨rfl, iff_of_true rfl (fun h => Bool.noConfusion h.2.2.1), fun h => ?_⟩
      rw [forM_eq_ok_iff.mpr (h.2.1 htakes)] at hinvalid
      cases hinvalid
    | false =>
      obtain ⟨removed, rest, h⟩ := respond_remove hrun
      obtain ⟨route, hroute, hblocked⟩ := h.stopped
      rw [hw, zero_add] at hblocked
      refine ⟨h.saved, ?_, ?_⟩
      · rw [h.table_eq_iff]
        constructor
        · -- the first route is the blocked one, and none is lost
          rintro rfl ⟨-, -, -, ⟨first, hfirst, hfree⟩, -⟩
          cases hroute.symm.trans hfirst
          exact hfree hblocked
        · intro hkept
          cases removed with
          | nil => rfl
          | cons first others =>
            have hfree := h.free 0 first rfl
            rw [hw] at hfree
            refine absurd ⟨hnew, htakes, rfl, ⟨first, ?_, hfree⟩, _, route, succ_pos _, hroute,
              hblocked⟩ hkept
            rw [h.split]
            rfl
      · -- the fault is the save, so it is the check that has stopped the removal
        rintro ⟨-, hvalid, ⟨text, rfl⟩, -⟩
        rcases hblocked with hinvalid | hhit
        · exact hinvalid (hvalid htakes route (mem_of_getElem? hroute))
        · exact hhit rfl
  · cases (Prod.mk.inj (Option.some.inj hrun)).1

variable {replaced : Bool}

/-- Routes that were taken out are all valid, none is blocked, and putting them back gives the table
from before. -/
theorem takeOut_putBack {saved : Option NodeState} {restore : Except String Unit}
    (htake : (takeOut dryRun req state).respond (handle K (some (.save text replaced))) w =
      some (.ok (), w₁))
    (hback : (putBack dryRun req state).respond (handle K (some (.save text replaced)))
      { w₁ with saved := saved } = some (restore, w')) :
    w₁.saved = w.saved ∧ w'.table = w.table ∧ w'.saved = saved ∧
      ((req.connected && state.fallbackActive) = true →
        ∀ route ∈ state.fallbackRoutes, route.Valid) := by
  unfold takeOut at htake
  unfold putBack at hback
  split_ifs at htake hback with htakes
  · cases dryRun with
    | true =>
      rw [remove, forRoutes_dry] at htake
      rw [apply, forRoutes_dry] at hback
      -- a dry run has no effect on the table, in either direction
      obtain ⟨hvalid, rfl⟩ := Prod.mk.inj (Option.some.inj htake)
      obtain ⟨-, rfl⟩ := Prod.mk.inj (Option.some.inj hback)
      exact ⟨rfl, rfl, rfl, fun _ => forM_eq_ok_iff.mp hvalid⟩
    | false =>
      obtain ⟨removed, rest, h⟩ := respond_remove htake
      obtain ⟨rfl, -⟩ | ⟨route, tail, e, -, herr, -⟩ := h.stop
      · have hsplit : state.fallbackRoutes = removed := h.split.trans (append_nil removed)
        have hvalid : ∀ route ∈ state.fallbackRoutes, route.Valid := by
          intro route hmem
          rw [hsplit] at hmem
          obtain ⟨i, hi⟩ := mem_iff_getElem?.mp hmem
          exact not_not.mp fun hinvalid => h.free i route hi (.inl hinvalid)
        -- only the save fails
        have hcalm : ∀ number, struck (some (.save text replaced)) number = none := fun _ => rfl
        obtain ⟨commands, happly⟩ := respond_apply (K := K) hcalm hvalid { w₁ with saved := saved }
        obtain ⟨-, rfl⟩ := Prod.mk.inj (Option.some.inj (happly.symm.trans hback))
        refine ⟨h.saved, ?_, rfl, fun _ => hvalid⟩
        show install K.key K.hop state.fallbackRoutes w₁.table = w.table
        rw [h.table, hsplit]
        exact install_withdraw h.held
      · cases herr
  · obtain ⟨-, rfl⟩ := Prod.mk.inj (Option.some.inj htake)
    obtain ⟨-, rfl⟩ := Prod.mk.inj (Option.some.inj hback)
    exact ⟨rfl, rfl, rfl, fun h => absurd h htakes⟩

theorem not_losesRoutes
    (hvalid : (req.connected && state.fallbackActive) = true →
      ∀ route ∈ state.fallbackRoutes, route.Valid) :
    ¬ LosesRoutes dryRun (some (.save text replaced)) req state := by
  rintro ⟨-, htakes, -, -, i, route, -, hroute, hinvalid | hhit⟩
  · exact hinvalid (hvalid htakes route (mem_of_getElem? hroute))
  · exact hhit rfl

/-! ### The result -/

/-- **A failing request changes nothing.** When at most one command or the save fails and the
handler reports an error, the routes in the kernel, the state in memory and the state file are as
they were before, except when a removal fails after another one, and when the save fails after it
has replaced the file. -/
theorem failed_reconnect_changes_nothing_iff {e : StatusCode × String} (hw : w.commands = 0)
    (hrun : (connectivity dryRun req now state).respond (handle K fault) w =
      some ((state', .error e), w')) :
    (w'.table = w.table ∧ state' = state ∧ w'.saved = w.saved) ↔
      ¬ LosesRoutes dryRun fault req state ∧ ¬ SavesAnyway fault req now state w.saved := by
  by_cases hnew : state.generation < req.generation
  · obtain ⟨rfl, ⟨text, htake⟩ | ⟨w₁, text, replaced, restore, htake, rfl, hback⟩⟩ :=
      respond_connectivity_error hnew hrun
    · -- the routes cannot be taken out
      obtain ⟨hsaved, htable, hnot⟩ := takeOut_error now hw hnew htake
      rw [htable]
      exact ⟨fun h => ⟨h.1, hnot⟩, fun h => ⟨h.1, rfl, hsaved⟩⟩
    · -- the save fails, and the routes are put back
      obtain ⟨hkept, htable, hsaved, hvalid⟩ := takeOut_putBack htake hback
      rw [and_iff_right htable, and_iff_right rfl, and_iff_right (not_losesRoutes hvalid), hsaved,
        hkept]
      cases replaced with
      | true =>
        constructor
        · rintro heq ⟨-, -, -, hne⟩
          exact hne heq.symm
        · intro h
          by_contra hne
          exact h ⟨hnew, hvalid, ⟨text, rfl⟩, Ne.symm hne⟩
      | false =>
        refine iff_of_true rfl ?_
        rintro ⟨-, -, ⟨other, hother⟩, -⟩
        cases hother
  · -- a stale request is refused before anything else
    rw [connectivity, if_pos (not_lt.mp hnew)] at hrun
    obtain ⟨hstate, rfl⟩ := Prod.mk.inj (Option.some.inj hrun)
    obtain ⟨rfl, -⟩ := Prod.mk.inj hstate
    exact iff_of_true ⟨rfl, rfl, rfl⟩ ⟨fun h => hnew h.1, fun h => hnew h.1⟩

/-! ### A node with two routes -/

def plain : Reading String String := ⟨id, id⟩

def firstRoute : FallbackRoute :=
  { cidr := "10.1.0.0/16", via := "10.0.0.1", interface := "sf1" }

def secondRoute : FallbackRoute :=
  { cidr := "10.2.0.0/16", via := "10.0.0.2", interface := "sf2" }

def fallenBack : NodeState :=
  { NodeState.initial 0 with fallbackActive := true, fallbackRoutes := [firstRoute, secondRoute] }

def fallenBackWorld : World String String where
  table := install plain.key plain.hop fallenBack.fallbackRoutes fun _ => none
  saved := some fallenBack

def reconnect : Connectivity := ⟨true, 2⟩

theorem fallenBack_valid : ∀ route ∈ fallenBack.fallbackRoutes, route.Valid := by
  decide +kernel

theorem failed_save_changes_nothing :
    ∃ state' e w', (connectivity false reconnect 5 fallenBack).respond
        (handle plain (some (.save "no space left on device" false))) fallenBackWorld =
        some ((state', .error e), w') ∧
      w'.table = fallenBackWorld.table ∧ state' = fallenBack ∧
      w'.saved = fallenBackWorld.saved := by
  have hfails : ((connectivity false reconnect 5 fallenBack).respond
      (handle plain (some (.save "no space left on device" false))) fallenBackWorld).map
        (fun r => r.1.2) = some (.error (.internalServerError, "no space left on device")) := by
    decide +kernel
  obtain ⟨⟨⟨state', answer⟩, w'⟩, hrun, rfl⟩ := map_eq_some_iff.mp hfails
  refine ⟨state', _, w', hrun, (failed_reconnect_changes_nothing_iff rfl hrun).mpr ⟨?_, ?_⟩⟩
  · exact not_losesRoutes fun _ => fallenBack_valid
  · rintro ⟨-, -, ⟨text, htext⟩, -⟩
    cases htext

/-- The second removal fails: the request fails, the state in memory still has both routes, and the
kernel has lost the first. -/
theorem first_route_lost :
    ∃ w', (connectivity false reconnect 5 fallenBack).respond
        (handle plain (some (.command 1 .status))) fallenBackWorld =
        some ((fallenBack, .error (.internalServerError,
          "ip route delete failed for 10.2.0.0/16")), w') ∧
      fallenBackWorld.table (plain.key firstRoute) = some (plain.hop firstRoute) ∧
      w'.table (plain.key firstRoute) = none := by
  have hfails : ((connectivity false reconnect 5 fallenBack).respond
      (handle plain (some (.command 1 .status))) fallenBackWorld).map
        (fun r => (r.1, r.2.table (plain.key firstRoute))) =
      some ((fallenBack, .error (.internalServerError,
        "ip route delete failed for 10.2.0.0/16")), none) := by
    decide +kernel
  obtain ⟨⟨answer, w'⟩, hrun, hresult⟩ := map_eq_some_iff.mp hfails
  obtain ⟨rfl, hlost⟩ := Prod.mk.inj hresult
  exact ⟨w', hrun, by decide +kernel, hlost⟩

end Fallback
end StarFabric.Onboard

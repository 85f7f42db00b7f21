import StarFabric.Onboard.Lifetime

/-!
# What survives a restart

Two results about the whole life of an onboard node. The generations of accepted connectivity
requests rise over all its processes (`accepted_generations_increase`). The memory and the file
agree after every step, when a failed save leaves the old file, exactly unless a fault request
changes the state and its save fails (`memory_agrees_iff`).
-/

namespace StarFabric.Onboard
namespace Lifetime

open EffectProgram Fallback List Option Prog

/-! ### Replay protection -/

/-- The generations that were accepted rose, and the file and the memory are not behind. -/
structure Protected (node : Node) : Prop where
  increasing : node.log.Pairwise (· < ·)
  saved : ∀ g ∈ node.log, ∃ state, node.world.saved = some state ∧ g ≤ state.generation
  memory : ∀ process, node.process = some process → ∀ g ∈ node.log, g ≤ process.state.generation

section Replay

variable {env : ℕ → Outside} {node : Node}

theorem saved_of_kept {g generation : ℕ} {old : Option NodeState} {w : World}
    (hold : ∃ state, old = some state ∧ g ≤ state.generation) (hmemory : g ≤ generation)
    (hw : Kept generation old w) : ∃ state, w.saved = some state ∧ g ≤ state.generation := by
  rcases hw with hsame | ⟨state, hstate, hle⟩
  · rw [hsame]
    exact hold
  · exact ⟨state, hstate, hmemory.trans hle⟩

theorem Event.accepted_pairwise (event : Event) (reply : Option Reply) :
    (event.accepted reply).Pairwise (· < ·) := by
  unfold Event.accepted
  split
  · split_ifs
    · exact pairwise_singleton _ _
    · exact List.Pairwise.nil
  · exact List.Pairwise.nil

theorem Protected.serve (h : Protected node) (event : Event) (stop : Option ℕ) :
    Protected (node.step env (.serve event stop)) := by
  unfold Node.step
  cases hprocess : node.process with
  | none => exact h
  | some process =>
    have hlog : ∀ g ∈ node.log, g ≤ process.state.generation := h.memory process hprocess
    have hmeets : Meets (perform env) (Kept process.state.generation node.world.saved)
        (Served env event process.state node.world.saved) (Lifetime.serve process event)
        node.world := meets_serve process event
    obtain ⟨hkept, hserved⟩ := hmeets.attempt stop
    have hsaved := fun g hg => saved_of_kept (h.saved g hg) (hlog g hg) hkept
    dsimp only
    cases hended : (attempt (perform env) stop (Lifetime.serve process event) node.world).1 with
    | none => exact ⟨h.increasing, hsaved, nofun⟩
    | some ended =>
      obtain ⟨hgeneration, haccepted, -⟩ := hserved ended hended
      refine ⟨?_, ?_, ?_⟩
      · -- at most one generation is added, above the memory and so above the log
        refine pairwise_append.mpr ⟨h.increasing, ?_, fun g hg g' hg' => ?_⟩
        · exact event.accepted_pairwise ended.2
        · exact (hlog g hg).trans_lt (haccepted g' hg').2.2
      · refine forall_mem_append.mpr ⟨hsaved, fun g hg => ?_⟩
        exact ⟨ended.1, (haccepted g hg).1, (haccepted g hg).2.1.ge⟩
      · intro process' hprocess'
        cases hprocess'
        refine forall_mem_append.mpr ⟨fun g hg => (hlog g hg).trans hgeneration, ?_⟩
        exact fun g hg => (haccepted g hg).2.1.ge

theorem le_of_load {boot : Boot} {saved : Option NodeState} {loaded : NodeState} {g : ℕ}
    (hload : boot.load saved = .ok loaded)
    (hg : ∃ state, saved = some state ∧ g ≤ state.generation) : g ≤ loaded.generation := by
  obtain ⟨state, rfl, hle⟩ := hg
  unfold Boot.load at hload
  cases hread : boot.readError with
  | some e =>
    rw [hread] at hload
    cases hload
  | none =>
    rw [hread] at hload
    cases hload
    exact hle

theorem Protected.start (h : Protected node) (boot : Boot) (stop : Option ℕ) :
    Protected (node.step env (.start boot stop)) := by
  have hstart := fun g hg => (@meets_start env node.world g boot
    fun loaded hload => le_of_load hload (h.saved g hg)).attempt stop
  unfold Node.step
  cases hprocess : node.process with
  | some process => exact h
  | none =>
    have hsaved := fun g hg => saved_of_kept (h.saved g hg) le_rfl (hstart g hg).1
    dsimp only
    split
    · next state hended =>
      refine ⟨h.increasing, hsaved, fun process' hprocess' g hg => ?_⟩
      cases hprocess'
      exact ((hstart g hg).2 _ hended state rfl).1
    · exact ⟨h.increasing, hsaved, nofun⟩

theorem Protected.step (h : Protected node) (step : Step) : Protected (node.step env step) := by
  cases step with
  | serve event stop => exact h.serve event stop
  | start boot stop => exact h.start boot stop
  | stop => exact ⟨h.increasing, h.saved, nofun⟩

/-- **Replay protection.** Over the whole life of a node, with saves that fail before or after they
replace the file and with processes that stop anywhere, the generations of the connectivity
requests that are answered as accepted are strictly increasing. -/
theorem accepted_generations_increase (env : ℕ → Outside) (saved : Option NodeState)
    (steps : List Step) : ((Node.off saved).run env steps).log.Pairwise (· < ·) := by
  have hstart : Protected (Node.off saved) := by
    refine ⟨List.Pairwise.nil, nofun, nofun⟩
  have hrun : Protected ((Node.off saved).run env steps) :=
    foldlRecOn steps (Node.step env) hstart fun node h step _ => h.step step
  exact hrun.increasing

/-- **No accepted generation is forgotten.** After any life of a node, the state file has a
generation that is not below any accepted one, and so has the process when there is one. -/
theorem accepted_generations_kept (env : ℕ → Outside) (saved : Option NodeState)
    (steps : List Step) : ∀ g ∈ ((Node.off saved).run env steps).log,
      (∃ state, ((Node.off saved).run env steps).world.saved = some state ∧ g ≤ state.generation) ∧
        ∀ process ∈ ((Node.off saved).run env steps).process, g ≤ process.state.generation := by
  have hstart : Protected (Node.off saved) := ⟨List.Pairwise.nil, nofun, nofun⟩
  have hrun : Protected ((Node.off saved).run env steps) :=
    foldlRecOn steps (Node.step env) hstart fun node h step _ => h.step step
  exact fun g hg => ⟨hrun.saved g hg, fun process hprocess => hrun.memory process hprocess g hg⟩

end Replay

/-! ### Memory and file -/

/-- The state of the process is the one in the file, when there is a process and a file. -/
def Node.Agrees (node : Node) : Prop :=
  ∀ process state, node.process = some process → node.world.saved = some state →
    process.state = state

/-- A fault request that changes the state, whose save fails before it replaces the file, while there
is a file. -/
structure Torn (env : ℕ → Outside) (node : Node) (step : Step) : Prop where
  request : ∃ mode stop process, step = .serve (.fault mode) stop ∧ stop ≠ some 0 ∧
    node.process = some process ∧ inject process.state mode ≠ process.state
  fails : ∃ e, (env node.world.calls).save = .before e
  file : node.world.saved ≠ none

section Agree

variable {env : ℕ → Outside} {node : Node}

/-- The reply of `fault`, by the answer to its save. -/
def faultReply : Except String Unit → Reply
  | .ok () => .ok "accepted"
  | .error e => internal e

theorem serve_fault (process : Process) (mode : Option String) :
    serve process (.fault mode) = .call (.routing (.save (inject process.state mode))) fun answer =>
        .done (inject process.state mode, some (faultReply answer)) := by
  refine congrArg (Prog.call (I := iface) _) (funext fun answer => ?_)
  cases answer <;> rfl

theorem step_fault (env : ℕ → Outside) {process : Process} (hprocess : node.process = some process)
    (mode : Option String) {stop : Option ℕ} (hstop : stop ≠ some 0) :
    (node.step env (.serve (.fault mode) stop)).process =
        some { process with state := inject process.state mode } ∧
      (node.step env (.serve (.fault mode) stop)).world.saved =
        (env node.world.calls).save.file (inject process.state mode) node.world.saved := by
  have hended : attempt (perform env) stop (serve process (.fault mode)) node.world =
      (some (inject process.state mode, some (faultReply (env node.world.calls).save.answer)),
        { node.world.next with
          saved := (env node.world.calls).save.file (inject process.state mode)
            node.world.saved }) := by
    rw [serve_fault]
    cases stop with
    | none => rfl
    | some n =>
      cases n with
      | zero => exact absurd rfl hstop
      | succ n => cases n <;> rfl
  unfold Node.step
  rw [hprocess]
  dsimp only
  rw [hended]
  exact ⟨rfl, rfl⟩

theorem agrees_of_served (hclean : Clean env) {process : Process}
    (hprocess : node.process = some process) (hagrees : node.Agrees) {event : Event}
    (hevent : ∀ mode, event ≠ .fault mode) (stop : Option ℕ) :
    (node.step env (.serve event stop)).Agrees := by
  have hmeets : Meets (perform env) (Kept process.state.generation node.world.saved)
      (Served env event process.state node.world.saved) (serve process event) node.world :=
    meets_serve process event
  obtain ⟨-, hserved⟩ := hmeets.attempt stop
  unfold Node.step
  rw [hprocess]
  dsimp only
  cases hended : (attempt (perform env) stop (serve process event) node.world).1 with
  | none => exact nofun
  | some ended =>
    intro process' state hprocess' hstate
    cases hprocess'
    show ended.1 = state
    rcases (hserved ended hended).settled hevent hclean with hsaved | ⟨hsaved, hsame⟩
    · rw [hsaved] at hstate
      exact some.inj hstate
    · rw [hsaved] at hstate
      rw [hsame]
      exact hagrees process state hprocess hstate

theorem agrees_start (boot : Boot) (stop : Option ℕ) (hagrees : node.Agrees) :
    (node.step env (.start boot stop)).Agrees := by
  have hstart := (@meets_start env node.world 0 boot fun _ _ => Nat.zero_le _).attempt stop
  unfold Node.step
  cases hprocess : node.process with
  | some process => exact hagrees
  | none =>
    dsimp only
    split
    · next state hended =>
      intro process' file hprocess' hfile
      cases hprocess'
      obtain ⟨-, loaded, hload, hsettled⟩ := hstart.2 _ hended state rfl
      rcases hsettled with hsaved | ⟨hsaved, rfl⟩
      · rw [hsaved] at hfile
        exact some.inj hfile
      · -- nothing was written, so the state is the one that was loaded from the file
        rw [hsaved] at hfile
        rw [hfile] at hload
        unfold Boot.load at hload
        cases hread : boot.readError with
        | some e =>
          rw [hread] at hload
          cases hload
        | none =>
          rw [hread] at hload
          exact (Except.ok.inj hload).symm
    · exact nofun

theorem step_agrees_iff (hclean : Clean env) (hagrees : node.Agrees) (step : Step) :
    (node.step env step).Agrees ↔ ¬ Torn env node step := by
  by_cases htorn : Torn env node step
  · obtain ⟨⟨mode, stop, process, rfl, hstop, hprocess, hchanges⟩, ⟨e, hfails⟩, hfile⟩ := htorn
    refine iff_of_false (fun hafter => ?_) (not_not.mpr
      ⟨⟨mode, stop, process, rfl, hstop, hprocess, hchanges⟩, ⟨e, hfails⟩, hfile⟩)
    obtain ⟨state, hstate⟩ := ne_none_iff_exists'.mp hfile
    obtain ⟨hprocess', hsaved'⟩ := step_fault env hprocess mode hstop
    rw [hfails] at hsaved'
    have hmemory : inject process.state mode = state :=
      hafter _ state hprocess' (hsaved'.trans hstate)
    exact hchanges (hmemory.trans (hagrees process state hprocess hstate).symm)
  · refine iff_of_true ?_ htorn
    cases step with
    | stop => exact nofun
    | start boot stop => exact agrees_start boot stop hagrees
    | serve event stop =>
      cases hprocess : node.process with
      | none =>
        unfold Node.step
        rw [hprocess]
        exact hagrees
      | some process =>
        by_cases hfault : ∃ mode, event = .fault mode
        swap
        · exact agrees_of_served hclean hprocess hagrees (fun mode h => hfault ⟨mode, h⟩) stop
        obtain ⟨mode, rfl⟩ := hfault
        by_cases hstop : stop = some 0
        · subst hstop
          unfold Node.step
          dsimp only
          rw [hprocess]
          exact nofun
        obtain ⟨hprocess', hsaved'⟩ := step_fault env hprocess mode hstop
        intro after state hafter hstate
        rw [hprocess'] at hafter
        cases hafter
        show inject process.state mode = state
        rw [hsaved'] at hstate
        cases hfate : (env node.world.calls).save with
        | ok =>
          rw [hfate] at hstate
          exact some.inj hstate
        | after e => exact absurd hfate (hclean _ e)
        | before e =>
          rw [hfate] at hstate
          have hfile : node.world.saved = some state := hstate
          -- the request is not torn, so it changes nothing
          by_contra hne
          refine htorn ⟨⟨mode, stop, process, rfl, hstop, hprocess, fun hsame => hne ?_⟩,
            ⟨e, hfate⟩, by rw [hfile]; nofun⟩
          exact hsame.trans (hagrees process state hprocess hfile)

/-- **Memory and file agree** after every step of a run, when a failed save leaves the old file,
exactly when no fault request that changes the state has its save fail while there is a file. -/
theorem memory_agrees_iff (hclean : Clean env) (saved : Option NodeState) (steps : List Step) :
    (∀ done rest, steps = done ++ rest → ((Node.off saved).run env done).Agrees) ↔
      ∀ done step rest, steps = done ++ step :: rest →
        ¬ Torn env ((Node.off saved).run env done) step := by
  have hoff : (Node.off saved).Agrees := by
    intro process state hprocess
    cases hprocess
  exact ExceptFold.foldl_always_iff (I := fun _ => True) (P := Node.Agrees) (T := Torn env)
    (fun _ => trivial) hoff (fun _ step _ hagrees => step_agrees_iff hclean hagrees step) steps

end Agree

/-! ### A node that forgets a fault -/

def plainBoot : Boot :=
  { args := {}, config := { fallbackRoutes := [], fallbackTargets := [] }, marker := .ok "a"
    lookup := fun _ => .notRun "", now := 1000, readError := none }

def fullFrom (n : ℕ) : ℕ → Outside := fun i =>
  if i < n then {} else { save := .before "No space left on device" }

def contactAndFault : List Step :=
  [.start plainBoot none, .serve (.connectivity ⟨true, 7⟩ 2000) none,
    .serve (.fault (some "process")) none]

theorem fullFrom_clean (n : ℕ) : Clean (fullFrom n) := by
  intro i e
  unfold fullFrom
  split_ifs <;> nofun

def twoContacts : List Step :=
  [.start plainBoot none, .serve (.connectivity ⟨true, 7⟩ 2000) none,
    .serve (.connectivity ⟨true, 8⟩ 3000) none]

theorem accepted_generations_kept_seven : ∃ state,
    ((Node.off none).run (fullFrom 1) twoContacts).world.saved = some state ∧
      7 ≤ state.generation :=
  (accepted_generations_kept (fullFrom 1) none twoContacts 7 (.head _)).1

/-- Without room for the second save the second contact is refused, and memory and file agree. -/
theorem memory_agrees_after_refused_contact :
    ((Node.off none).run (fullFrom 1) twoContacts).Agrees ∧
      ((Node.off none).run (fullFrom 1) twoContacts).log = [7] := by
  refine ⟨?_, rfl⟩
  refine (memory_agrees_iff (fullFrom_clean 1) none twoContacts).mpr ?_ twoContacts []
    (append_nil _).symm
  intro done step rest hsplit htorn
  obtain ⟨mode, stop, process, rfl, -⟩ := htorn.request
  have hmem : Step.serve (.fault mode) stop ∈ twoContacts := by
    rw [hsplit]
    exact mem_append_right done mem_cons_self
  simp [twoContacts] at hmem

/-- Without room for the second save the process is unhealthy and the file is not. A restart makes
the node report that it is healthy. -/
theorem fault_forgotten_by_restart :
    ¬ ((Node.off none).run (fullFrom 1) contactAndFault).Agrees ∧
      (((Node.off none).run (fullFrom 1) contactAndFault).process.map fun p => p.state.healthy) =
        some false ∧
      (((Node.off none).run (fullFrom 1)
        (contactAndFault ++ [.stop, .start plainBoot none])).process.map fun p => p.state.healthy) =
          some true := by
  refine ⟨fun hagrees => ?_, rfl, rfl⟩
  have hstate := hagrees _ _ rfl rfl
  exact absurd (congrArg NodeState.healthy hstate) (by decide)

end Lifetime
end StarFabric.Onboard

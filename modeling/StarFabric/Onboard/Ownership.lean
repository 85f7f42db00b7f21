import StarFabric.Onboard.Reconnect

/-!
# Who owns the fallback routes

Requests, rounds of the autonomy loop, and restarts of the process that leave the kernel as it is.
Requests and rounds keep the routes in the kernel equal to the routes on record, as long as no two
of these compete for one place (`Keeps`). A restart forgets about old routes that the new ones do
not overwrite. `Sound` is the invariant.
-/

namespace StarFabric.Onboard
namespace Fallback

open Bool EffectProgram ExceptFold KeyedTable List Option

variable {δ γ : Type} [DecidableEq δ] [DecidableEq γ]

/-! ### Runs of a node -/

/-- A node: how its process was started and whether it is up, its state, the kernel and the state
file. -/
structure Node (δ γ : Type) where
  args : Args
  config : Config
  up : Bool
  state : NodeState
  world : World δ γ

inductive Step where
  | connectivity (req : Connectivity) (now : ℕ)
  | tick (now : ℕ) (lookup : ℕ → Lookup)
  | restart (args : Args) (config : Config) (marker : Except String String) (now : ℕ)
      (lookup : ℕ → Lookup)

/-- `StateStore::load`: the state file, or the default state at the time `now`. -/
def World.load (now : ℕ) (w : World δ γ) : NodeState := w.saved.getD (NodeState.initial now)

/-- The node after a startup. A process that does not come up leaves its state in the file. -/
def Node.started (args : Args) (config : Config) (now : ℕ) :
    Except String NodeState × World δ γ → Node δ γ
  | (.ok state, w) => ⟨args, config, true, state, w⟩
  | (.error _, w) => ⟨args, config, false, w.load now, w⟩

def Node.step (K : Reading δ γ) (node : Node δ γ) : Step → Option (Node δ γ)
  | .connectivity req now =>
    if node.up then
      ((Fallback.connectivity node.args.dryRunRoutes req now node.state).respond (handle K none)
        node.world).map fun r => { node with state := r.1.1, world := r.2 }
    else none
  | .tick now lookup =>
    if node.up then
      ((autonomyTick node.args node.config now lookup node.state).respond (handle K none)
        node.world).map fun r => { node with state := r.1, world := r.2 }
    else none
  -- the kernel is not touched: what the old process has installed is still there
  | .restart args config marker now lookup =>
    ((startup args config marker lookup (node.world.load now)).respond (handle K none)
      node.world).map (Node.started args config now)

def Node.run (K : Reading δ γ) (node : Node δ γ) (steps : List Step) : Option (Node δ γ) :=
  steps.foldlM (Node.step K) node

def Node.fresh : Node δ γ where
  args := {}
  config := {}
  up := false
  state := NodeState.initial 0
  world := { table := fun _ => none, saved := none }

def NodeState.inForce (state : NodeState) : List FallbackRoute :=
  if state.fallbackActive then state.fallbackRoutes else []

/-- The routes that the node has put into the kernel and not taken out are the ones in force. -/
def Node.Owned (K : Reading δ γ) (node : Node δ γ) : Prop :=
  Holds K.key K.hop node.world.table node.state.inForce

/-! ### The condition on a step -/

/-- The routes wanted do not compete for a place in the kernel, and at a restart they overwrite the
ones on record. -/
def Node.Keeps (K : Reading δ γ) (node : Node δ γ) : Step → Prop
  | .connectivity _ _ => True
  | .tick _ lookup => ∀ desired, desiredFallback node.config lookup = .ok desired →
      Functional K.key K.hop desired ∧ K.SameText node.state.fallbackRoutes desired
  | .restart args config _ now lookup => args.dryRunRoutes = false ∧
      ((node.world.load now).fallbackActive = true →
        ∀ desired, desiredFallback config lookup = .ok desired →
          Functional K.key K.hop desired ∧
            ∀ route ∈ (node.world.load now).fallbackRoutes,
              ∃ other ∈ desired, K.key other = K.key route)

def Node.KeepsAll (K : Reading δ γ) (node : Node δ γ) (steps : List Step) : Prop :=
  ∀ before step after, steps = before ++ step :: after →
    ∀ mid, node.run K before = some mid → mid.Keeps K step

/-! ### The invariant -/

def NodeState.SameRecord (a b : NodeState) : Prop :=
  a.fallbackActive = b.fallbackActive ∧ a.fallbackRoutes = b.fallbackRoutes

theorem NodeState.SameRecord.symm {a b : NodeState} (h : a.SameRecord b) : b.SameRecord a :=
  ⟨h.1.symm, h.2.symm⟩

theorem NodeState.SameRecord.trans {a b c : NodeState} (hab : a.SameRecord b)
    (hbc : b.SameRecord c) : a.SameRecord c :=
  ⟨hab.1.trans hbc.1, hab.2.trans hbc.2⟩

structure Node.Sound (K : Reading δ γ) (node : Node δ γ) : Prop where
  held : Holds K.key K.hop node.world.table node.state.fallbackRoutes
  idle : node.state.fallbackActive = false → node.state.fallbackRoutes = []
  valid : ∀ route ∈ node.state.fallbackRoutes, route.Valid
  saved : ∀ now, (node.world.load now).SameRecord node.state
  real : node.up = true → node.args.dryRunRoutes = false

variable {K : Reading δ γ} {node node' : Node δ γ} {state state' : NodeState} {w w' : World δ γ}
  {req : Connectivity} {now : ℕ} {args : Args} {config : Config} {lookup : ℕ → Lookup}

omit [DecidableEq δ] [DecidableEq γ] in
theorem sound_fresh : (Node.fresh : Node δ γ).Sound K where
  held := by
    intro k v
    exact iff_of_false nofun fun ⟨_, hmem, _⟩ => not_mem_nil hmem
  idle := fun _ => rfl
  valid := nofun
  saved := fun _ => ⟨rfl, rfl⟩
  real := nofun

omit [DecidableEq δ] [DecidableEq γ] in
theorem Node.Sound.owned (h : node.Sound K) : node.Owned K := by
  unfold Node.Owned NodeState.inForce
  split_ifs with hactive
  · exact h.held
  · -- without a fallback in force nothing is on record
    rw [← h.idle (not_eq_true _ ▸ hactive)]
    exact h.held

omit [DecidableEq δ] [DecidableEq γ] in
theorem load_of_saved (h : w.saved = some state) (now : ℕ) : w.load now = state := by
  rw [World.load, h]
  rfl

omit [DecidableEq δ] [DecidableEq γ] in
theorem sound_of_saved (hsaved : node.world.saved = some node.state)
    (hheld : Holds K.key K.hop node.world.table node.state.fallbackRoutes)
    (hidle : node.state.fallbackActive = false → node.state.fallbackRoutes = [])
    (hvalid : ∀ route ∈ node.state.fallbackRoutes, route.Valid)
    (hreal : node.up = true → node.args.dryRunRoutes = false) : node.Sound K where
  held := hheld
  idle := hidle
  valid := hvalid
  saved := by
    intro now
    rw [load_of_saved hsaved now]
    exact ⟨rfl, rfl⟩
  real := hreal

/-! ### Requests -/

theorem takeOut_valid {result : Except String Unit}
    (hvalid : ∀ route ∈ state.fallbackRoutes, route.Valid)
    (hrun : (takeOut false req state).respond (handle K none) w = some (result, w')) :
    result = .ok () ∧ w'.table = if req.connected && state.fallbackActive
      then withdraw K.key state.fallbackRoutes w.table else w.table := by
  unfold takeOut at hrun
  split_ifs at hrun ⊢
  · obtain ⟨hok, htable, -⟩ := respond_remove_valid hvalid hrun
    exact ⟨hok, htable⟩
  · cases hrun
    exact ⟨rfl, rfl⟩

/-- A request is refused, or it is accepted: the new state is saved, and the routes are taken out if
the controller is back. -/
theorem respond_connectivity {answer : Except (StatusCode × String) String}
    (hvalid : ∀ route ∈ state.fallbackRoutes, route.Valid)
    (hrun : (connectivity false req now state).respond (handle K none) w =
      some ((state', answer), w')) :
    (state' = state ∧ w' = w) ∨
      state' = state.contact req now ∧ w'.saved = some (state.contact req now) ∧
        w'.table = if req.connected && state.fallbackActive
          then withdraw K.key state.fallbackRoutes w.table else w.table := by
  by_cases hstale : req.generation ≤ state.generation
  · rw [connectivity, if_pos hstale] at hrun
    obtain ⟨hstate, rfl⟩ := Prod.mk.inj (Option.some.inj hrun)
    exact .inl ⟨(Prod.mk.inj hstate).1.symm, rfl⟩
  · -- the routes are taken out, and then the new state is saved
    rw [connectivity, if_neg hstale] at hrun
    obtain ⟨result, w₁, htake, hrest⟩ := Prog.respond_bind_eq_some.mp hrun
    obtain ⟨rfl, htable⟩ := takeOut_valid hvalid htake
    obtain ⟨saved, w₂, hsave, hrest⟩ := Prog.respond_bind_eq_some.mp hrest
    cases hsave
    obtain ⟨hstate, rfl⟩ := Prod.mk.inj (Option.some.inj hrest)
    exact .inr ⟨(Prod.mk.inj hstate).1.symm, rfl, htable⟩

theorem Node.Sound.connectivity (h : node.Sound K)
    (hstep : node.step K (.connectivity req now) = some node') : node'.Sound K := by
  unfold Node.step at hstep
  split_ifs at hstep with hup
  obtain ⟨⟨⟨state', answer⟩, w'⟩, hrun, rfl⟩ := map_eq_some_iff.mp hstep
  rw [h.real hup] at hrun
  rcases respond_connectivity h.valid hrun with ⟨rfl, rfl⟩ | ⟨rfl, hsaved, htable⟩
  · exact h
  cases hconnected : req.connected with
  | false =>
    -- the record and the table stay as they are
    have hcontact : node.state.contact req now = { node.state with
        generation := req.generation, connected := false, lastContactUnixMs := now } := by
      unfold NodeState.contact
      rw [hconnected]
      rfl
    rw [hconnected, Bool.false_and, if_neg nofun] at htable
    refine sound_of_saved hsaved ?_ ?_ ?_ h.real
    · show Holds K.key K.hop w'.table (node.state.contact req now).fallbackRoutes
      rw [hcontact, htable]
      exact h.held
    · rw [hcontact]
      exact h.idle
    · rw [hcontact]
      exact h.valid
  | true =>
    -- the record is empty, and so is the table
    have hcontact : (node.state.contact req now).fallbackRoutes = [] := by
      unfold NodeState.contact
      rw [hconnected]
      rfl
    refine sound_of_saved hsaved ?_ (fun _ => hcontact) ?_ h.real
    · show Holds K.key K.hop w'.table (node.state.contact req now).fallbackRoutes
      rw [hcontact, htable, hconnected, Bool.true_and]
      split_ifs with hactive
      · exact h.held.withdraw_self
      · rw [← h.idle (Bool.not_eq_true _ ▸ hactive)]
        exact h.held
    · rw [hcontact]
      exact nofun

/-! ### The autonomy loop -/

theorem respond_autonomyTick (hreal : args.dryRunRoutes = false)
    (hheld : Holds K.key K.hop w.table state.fallbackRoutes)
    (hvalid : ∀ route ∈ state.fallbackRoutes, route.Valid)
    (hkeeps : ∀ desired, desiredFallback config lookup = .ok desired →
      Functional K.key K.hop desired ∧ K.SameText state.fallbackRoutes desired)
    (hrun : (autonomyTick args config now lookup state).respond (handle K none) w =
      some (state', w')) :
    (state' = state ∧ w' = w) ∨ ∃ desired, state' = state.fallBack desired ∧
      w'.saved = some (state.fallBack desired) ∧ (∀ route ∈ desired, route.Valid) ∧
      Holds K.key K.hop w'.table desired := by
  unfold autonomyTick at hrun
  split_ifs at hrun with hwait
  · cases hrun
    exact .inl ⟨rfl, rfl⟩
  cases hdesired : desiredFallback config lookup with
  | error e =>
    rw [hdesired] at hrun
    cases hrun
    exact .inl ⟨rfl, rfl⟩
  | ok desired =>
    obtain ⟨hfun, hsame⟩ := hkeeps desired hdesired
    rw [hdesired] at hrun
    dsimp only at hrun
    split_ifs at hrun with hsettled
    · cases hrun
      exact .inl ⟨rfl, rfl⟩
    rw [hreal] at hrun
    obtain ⟨result, w₁, htransition, hrest⟩ := Prog.respond_bind_eq_some.mp hrun
    -- the transition writes what is new and withdraws what is gone
    rcases respond_transition hheld hvalid hfun hsame htransition with
      ⟨e, rfl, rfl⟩ | ⟨rfl, -, hnew, hdone⟩
    · cases hrest
      exact .inl ⟨rfl, rfl⟩
    · obtain ⟨saved, w₂, hsave, hrest⟩ := Prog.respond_bind_eq_some.mp hrest
      cases hsave
      cases hrest
      exact .inr ⟨desired, rfl, rfl, hnew, hdone⟩

theorem Node.Sound.tick (h : node.Sound K) (hkeeps : node.Keeps K (.tick now lookup))
    (hstep : node.step K (.tick now lookup) = some node') : node'.Sound K := by
  unfold Node.step at hstep
  split_ifs at hstep with hup
  obtain ⟨⟨state', w'⟩, hrun, rfl⟩ := map_eq_some_iff.mp hstep
  rcases respond_autonomyTick (h.real hup) h.held h.valid hkeeps hrun with
    ⟨rfl, rfl⟩ | ⟨desired, rfl, hsaved, hvalid, hheld⟩
  · exact h
  · exact sound_of_saved hsaved hheld nofun hvalid h.real

/-! ### Restarts -/

variable {result : Except String NodeState}

theorem respond_reconstruct (hreal : args.dryRunRoutes = false)
    (hconfig : config.fallbackRoutes.forM validate = .ok ())
    (hrun : (reconstruct args config lookup state).respond (handle K none) w = some (result, w')) :
    (state.fallbackActive = false ∧ result = .ok state ∧ w' = w) ∨
      (∃ e, result = .error e ∧ w' = w) ∨
      ∃ desired, state.fallbackActive = true ∧ desiredFallback config lookup = .ok desired ∧
        result = .ok { state with fallbackRoutes := desired } ∧
        w'.saved = some { state with fallbackRoutes := desired } ∧
        (∀ route ∈ desired, route.Valid) ∧ w'.table = install K.key K.hop desired w.table := by
  unfold reconstruct at hrun
  cases hactive : state.fallbackActive with
  | false =>
    rw [hactive] at hrun
    cases hrun
    exact .inl ⟨rfl, rfl, rfl⟩
  | true =>
    rw [hactive] at hrun
    cases hdesired : desiredFallback config lookup with
    | error e =>
      rw [hdesired] at hrun
      cases hrun
      exact .inr (.inl ⟨e, rfl, rfl⟩)
    | ok desired =>
      -- the routes wanted are put in place, and nothing is withdrawn
      have hvalid := desiredFallback_valid hconfig hdesired
      rw [hdesired, hreal] at hrun
      obtain ⟨applied, w₁, happly, hrest⟩ := Prog.respond_bind_eq_some.mp hrun
      obtain ⟨commands, hdone⟩ := respond_apply (K := K) struck_none hvalid w
      cases hdone.symm.trans happly
      obtain ⟨saved, w₂, hsave, hrest⟩ := Prog.respond_bind_eq_some.mp hrest
      cases hsave
      cases hrest
      exact .inr (.inr ⟨desired, rfl, rfl, rfl, rfl, hvalid, rfl⟩)

variable {marker : Except String String}

/-- The startup stops before it has done anything, or it goes on to the routes with the record that
it has loaded. The state may have been saved on the way with another slot. -/
theorem respond_startup
    (hrun : (startup args config marker lookup state).respond (handle K none) w = some (result, w'))
    : (∃ e, result = .error e ∧ w' = w) ∨ config.fallbackRoutes.forM validate = .ok () ∧
      ∃ loaded w₁, loaded.SameRecord state ∧ w₁.table = w.table ∧
        (loaded = state ∧ w₁ = w ∨ w₁.saved = some loaded) ∧
        (reconstruct args config lookup loaded).respond (handle K none) w₁ = some (result, w') := by
  unfold startup at hrun
  cases hconfig : config.fallbackRoutes.forM validate with
  | error e =>
    rw [hconfig] at hrun
    cases hrun
    exact .inl ⟨e, rfl, rfl⟩
  | ok _ =>
  cases htargets : config.fallbackTargets.forM validateTarget with
  | error e =>
    rw [hconfig, htargets] at hrun
    cases hrun
    exact .inl ⟨e, rfl, rfl⟩
  | ok _ =>
  rw [hconfig, htargets] at hrun
  cases marker with
  | error e =>
    cases hrun
    exact .inl ⟨e, rfl, rfl⟩
  | ok slot =>
    refine .inr ⟨rfl, ?_⟩
    dsimp only at hrun
    split_ifs at hrun with hslot
    · exact ⟨state, w, ⟨rfl, rfl⟩, rfl, .inl ⟨rfl, rfl⟩, hrun⟩
    · obtain ⟨saved, w₁, hsave, hrest⟩ := Prog.respond_bind_eq_some.mp hrun
      cases hsave
      exact ⟨{ state with activeSlot := slot },
        { w with saved := some { state with activeSlot := slot } }, ⟨rfl, rfl⟩, rfl, .inr rfl,
        hrest⟩

omit [DecidableEq δ] [DecidableEq γ] in
theorem Node.Sound.of_record (h : node.Sound K) (htable : w.table = node.world.table)
    (hstate : state.SameRecord node.state) (hsaved : ∀ now, (w.load now).SameRecord state)
    {up : Bool} (hreal : up = true → args.dryRunRoutes = false) :
    Node.Sound K ⟨args, config, up, state, w⟩ where
  held := by
    show Holds K.key K.hop w.table state.fallbackRoutes
    rw [htable, hstate.2]
    exact h.held
  idle := by
    intro hidle
    exact hstate.2.trans (h.idle (hstate.1.symm.trans hidle))
  valid := by
    show ∀ route ∈ state.fallbackRoutes, route.Valid
    rw [hstate.2]
    exact h.valid
  saved := hsaved
  real := hreal

theorem Node.Sound.restart (h : node.Sound K)
    (hkeeps : node.Keeps K (.restart args config marker now lookup))
    (hstep : node.step K (.restart args config marker now lookup) = some node') :
    node'.Sound K := by
  obtain ⟨hreal, hkeeps⟩ := hkeeps
  obtain ⟨⟨result, w'⟩, hrun, rfl⟩ := map_eq_some_iff.mp hstep
  rcases respond_startup hrun with
    ⟨e, rfl, rfl⟩ | ⟨hconfig, loaded, w₁, hloaded, htable, hfile, hrest⟩
  · -- the process gives up, and its state stays in the file
    refine h.of_record rfl (h.saved now) (fun now' => ?_) fun _ => hreal
    exact (h.saved now').trans (h.saved now).symm
  -- what is loaded has the record of the node, and so has the file
  have hrecord : loaded.SameRecord node.state := hloaded.trans (h.saved now)
  have hsaved : ∀ now', (w₁.load now').SameRecord loaded := by
    intro now'
    rcases hfile with ⟨rfl, rfl⟩ | hfile
    · exact (h.saved now').trans hrecord.symm
    · rw [load_of_saved hfile now']
      exact ⟨rfl, rfl⟩
  rcases respond_reconstruct hreal hconfig hrest with
    ⟨-, rfl, rfl⟩ | ⟨e, rfl, rfl⟩ | ⟨desired, hactive, hdesired, rfl, hsaved', hvalid, hinstall⟩
  · -- no fallback is on record
    exact h.of_record htable hrecord hsaved fun _ => hreal
  · -- the routes wanted are not known, and the process gives up
    have hload : (w'.load now).SameRecord node.state := (hsaved now).trans hrecord
    refine h.of_record htable hload (fun now' => ?_) fun _ => hreal
    exact (hsaved now').trans (hsaved now).symm
  · obtain ⟨hfun, hcovered⟩ := hkeeps (hloaded.1.symm.trans hactive) desired hdesired
    refine sound_of_saved hsaved' ?_ (fun hidle => ?_) hvalid fun _ => hreal
    · -- every key of the table is one that the new routes overwrite
      show Holds K.key K.hop w'.table desired
      rw [hinstall]
      refine holds_install hfun fun k v hk => ?_
      rw [htable, h.held] at hk
      obtain ⟨route, hmem, rfl, -⟩ := hk
      rw [← (h.saved now).2] at hmem
      exact hcovered route hmem
    · cases hactive.symm.trans hidle

/-! ### Runs -/

theorem Node.Sound.step (h : node.Sound K) {step : Step} (hkeeps : node.Keeps K step)
    (hstep : node.step K step = some node') : node'.Sound K := by
  cases step with
  | connectivity req now => exact h.connectivity hstep
  | tick now lookup => exact h.tick hkeeps hstep
  | restart args config marker now lookup => exact h.restart hkeeps hstep

theorem run_append (before after : List Step) :
    node.run K (before ++ after) = (node.run K before).bind fun mid => mid.run K after := by
  unfold Node.run
  rw [foldlM_append]
  rfl

theorem Node.KeepsAll.left {before after : List Step} (h : node.KeepsAll K (before ++ after)) :
    node.KeepsAll K before := by
  intro first step rest hsplit
  refine h first step (rest ++ after) ?_
  rw [hsplit, append_assoc, cons_append]

variable {steps : List Step}

theorem Node.Sound.run (h : node.Sound K) (hkeeps : node.KeepsAll K steps)
    (hrun : node.run K steps = some node') : node'.Sound K := by
  -- along the steps that were taken so far
  induction steps using reverseRecOn generalizing node' with
  | nil =>
    cases hrun
    exact h
  | append_singleton steps step ih =>
    rw [run_append, bind_eq_some_iff] at hrun
    obtain ⟨mid, hbefore, hlast⟩ := hrun
    have hmid : mid.Sound K := ih hkeeps.left hbefore
    refine hmid.step (hkeeps steps step [] rfl mid hbefore) ?_
    rw [← hlast]
    show mid.step K step = (mid.step K step).bind some
    rw [bind_fun_some]

/-- **The node owns the routes in force.** In a run in which nothing fails and every step meets the
condition, the routes that the node has put into the kernel and not taken out are, after every step,
the ones on record if a fallback is in force, and none otherwise. -/
theorem fallback_routes_owned {before after : List Step}
    (hkeeps : (Node.fresh : Node δ γ).KeepsAll K (before ++ after))
    (hrun : Node.fresh.run K before = some node) : node.Owned K :=
  (sound_fresh.run hkeeps.left hrun).owned

/-! ### Checking the condition -/

instance decidableOnOk (P : List FallbackRoute → Prop) [∀ desired, Decidable (P desired)] :
    (result : Except String (List FallbackRoute)) →
      Decidable (∀ desired, result = .ok desired → P desired)
  | .error _ => isTrue nofun
  | .ok desired => decidable_of_iff (P desired)
      ⟨fun h _ heq => Except.ok.inj heq ▸ h, fun h => h desired rfl⟩

instance Node.decidableKeeps (K : Reading δ γ) (node : Node δ γ) :
    (step : Step) → Decidable (node.Keeps K step)
  | .connectivity _ _ => isTrue trivial
  | .tick _ lookup => inferInstanceAs (Decidable (∀ desired,
      desiredFallback node.config lookup = .ok desired →
        Functional K.key K.hop desired ∧ K.SameText node.state.fallbackRoutes desired))
  | .restart args config _ now lookup => inferInstanceAs (Decidable (args.dryRunRoutes = false ∧
      ((node.world.load now).fallbackActive = true →
        ∀ desired, desiredFallback config lookup = .ok desired →
          Functional K.key K.hop desired ∧
            ∀ route ∈ (node.world.load now).fallbackRoutes,
              ∃ other ∈ desired, K.key other = K.key route)))

/-- The condition along a run, up to the first step that cannot be taken. -/
def Node.checkAll (K : Reading δ γ) (node : Node δ γ) : List Step → Bool
  | [] => true
  | step :: rest => decide (node.Keeps K step) && match node.step K step with
    | none => true
    | some next => next.checkAll K rest

theorem keepsAll_of_check (h : node.checkAll K steps = true) : node.KeepsAll K steps := by
  induction steps generalizing node with
  | nil =>
    intro before step after hsplit
    cases before <;> cases hsplit
  | cons first rest ih =>
    rw [Node.checkAll, and_eq_true, decide_eq_true_iff] at h
    obtain ⟨hfirst, hrest⟩ := h
    intro before step after hsplit mid hmid
    cases before with
    | nil =>
      obtain ⟨rfl, -⟩ := cons.inj hsplit
      cases hmid
      exact hfirst
    | cons other before =>
      obtain ⟨rfl, htail⟩ := cons.inj hsplit
      -- the run goes through the node after the first step
      obtain ⟨next, hnext, hmid⟩ := bind_eq_some_iff.mp hmid
      rw [hnext] at hrest
      exact ih hrest before step after htail mid hmid

/-! ### A node with two targets -/

def twoTargets : Config where
  fallbackTargets := [
    { cidr := firstRoute.cidr, gatewayLoopback := "10.255.0.1" },
    { cidr := secondRoute.cidr, gatewayLoopback := "10.255.0.2" }]

def reached (route : FallbackRoute) : Lookup :=
  .output (.ok [{ gateway := some route.via, dev := some route.interface }])

def lookups (first second : Lookup) (i : ℕ) : Lookup := if i = 0 then first else second

/-- The routes are put in place after half a minute, one of them disappears, the process is started
again, and the controller comes back. -/
def orderlyRun : List Step := [
  .restart {} twoTargets (.ok "a") 0 (lookups .failed .failed),
  .tick 30000 (lookups (reached firstRoute) (reached secondRoute)),
  .tick 31000 (lookups .failed (reached secondRoute)),
  .restart {} twoTargets (.ok "b") 32000 (lookups .failed (reached secondRoute)),
  .connectivity reconnect 33000]

def leakingRun : List Step := [
  .restart {} twoTargets (.ok "a") 0 (lookups .failed .failed),
  .tick 30000 (lookups (reached firstRoute) .failed),
  .restart {} twoTargets (.ok "a") 31000 (lookups .failed (reached secondRoute)),
  .connectivity reconnect 32000]

theorem orderlyRun_owned :
    ∃ node, Node.fresh.run plain orderlyRun = some node ∧ node.Owned plain := by
  have hkeeps : Node.fresh.checkAll plain (orderlyRun ++ []) = true := by decide +kernel
  have hends : (Node.fresh.run plain orderlyRun).isSome = true := by decide +kernel
  obtain ⟨node, hrun⟩ := isSome_iff_exists.mp hends
  exact ⟨node, hrun, fallback_routes_owned (keepsAll_of_check hkeeps) hrun⟩

/-- The controller is back and no fallback is in force, but the kernel still has a route that was
put in place before the restart. -/
theorem route_leaked_at_restart :
    ∃ node, Node.fresh.run plain leakingRun = some node ∧ node.state.inForce = [] ∧
      node.world.table (plain.key firstRoute) = some (plain.hop firstRoute) ∧
      ¬ node.Owned plain := by
  have hends : (Node.fresh.run plain leakingRun).map
      (fun node => (node.state.inForce, node.world.table (plain.key firstRoute))) =
      some ([], some (plain.hop firstRoute)) := by decide +kernel
  obtain ⟨node, hrun, hresult⟩ := map_eq_some_iff.mp hends
  obtain ⟨hforce, hleft⟩ := Prod.mk.inj hresult
  refine ⟨node, hrun, hforce, hleft, fun howned => ?_⟩
  obtain ⟨route, hmem, -⟩ := (howned _ _).mp hleft
  rw [hforce] at hmem
  exact not_mem_nil hmem

end Fallback
end StarFabric.Onboard

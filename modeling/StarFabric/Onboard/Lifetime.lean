import StarFabric.Onboard.Routing

/-!
# The life of an onboard node

`onboard/src/main.rs` over the whole life of a node. The state of a process and the state file are
two copies of a `NodeState`. Every handler holds the lock of the state, so a request is one step of
a `Node`. A save may fail before the file is replaced or after (`SaveFate`), and a process may stop
anywhere (`Prog.attempt`).
-/

namespace StarFabric.Onboard
namespace Lifetime

open EffectProgram Prog Fallback List

/-! ### The handlers -/

/-- The effects: those of the routing handlers, and the calls to the slot manager. -/
inductive Call where
  | routing (c : Fallback.Call)
  /-- Reading the manifest and staging it. -/
  | stage (activeSlot : String)
  | confirm (slot : String)
  | rollback
  | restoreActiveSlot (slot : String)

def Call.Answer : Call → Type
  | .routing c => c.Answer
  | .stage _ | .restoreActiveSlot _ => Except String Unit
  | .confirm _ | .rollback => Except String String

def iface : Interface := ⟨Call, Call.Answer⟩

def routing {α : Type} (p : Prog Fallback.iface α) : Prog iface α :=
  p.embed (K := iface) Call.routing fun _ answer => answer

namespace Ask

def save (state : NodeState) : Prog iface (Except String Unit) := routing (Fallback.Ask.save state)

def stage (activeSlot : String) : Prog iface (Except String Unit) :=
  Prog.ask (I := iface) (.stage activeSlot)

def confirm (slot : String) : Prog iface (Except String String) :=
  Prog.ask (I := iface) (.confirm slot)

def rollback : Prog iface (Except String String) := Prog.ask (I := iface) .rollback

def restoreActiveSlot (slot : String) : Prog iface (Except String Unit) :=
  Prog.ask (I := iface) (.restoreActiveSlot slot)

end Ask

abbrev Reply := Except (StatusCode × String) String

def internal (text : String) : Reply := .error (.internalServerError, text)

def inject (state : NodeState) (mode : Option String) : NodeState :=
  { state with injectedFault := mode, healthy := mode != some "process" }

/-- `fault`. The state that was written is kept when the save fails. -/
def fault (mode : Option String) (state : NodeState) : Prog iface (NodeState × Reply) := do
  match ← Ask.save (inject state mode) with
  | .ok () => return (inject state mode, .ok "accepted")
  | .error e => return (inject state mode, internal e)

def stageUpdate (state : NodeState) : Prog iface (NodeState × Reply) := do
  match ← Ask.stage state.activeSlot with
  | .ok () => return (state, .ok "staged")
  | .error e => return (state, internal e)

/-- The text of a failed save, with the error of undoing the switch of slots. -/
def undone (err : String) : Except String Unit → String
  | .error restore => err ++ "; restore active slot: " ++ restore
  | .ok () => err

def confirmUpdate (slot : String) (state : NodeState) : Prog iface (NodeState × Reply) := do
  match ← Ask.confirm slot with
  | .error e => return (state, internal e)
  | .ok previousSlot =>
    match ← Ask.save { state with activeSlot := slot } with
    | .ok () => return ({ state with activeSlot := slot }, .ok "confirmed")
    | .error err =>
      let restore ← Ask.restoreActiveSlot previousSlot
      return (state, internal (undone err restore))

def rollbackUpdate (state : NodeState) : Prog iface (NodeState × Reply) := do
  match ← Ask.rollback with
  | .error e => return (state, internal e)
  | .ok slot =>
    match ← Ask.save { state with activeSlot := slot } with
    | .ok () => return ({ state with activeSlot := slot }, .ok "rolled_back")
    | .error err =>
      let restore ← Ask.restoreActiveSlot state.activeSlot
      return (state, internal (undone err restore))

/-! ### Processes -/

/-- What a process has: its state behind the lock, and what it was started with. -/
structure Process where
  state : NodeState
  args : Args
  config : Config

/-- A request, with the clock where it is read, or a tick of the autonomy loop. -/
inductive Event where
  | connectivity (req : Connectivity) (now : ℕ)
  | fault (mode : Option String)
  | stageUpdate
  | confirmUpdate (slot : String)
  | rollbackUpdate
  | tick (now : ℕ) (lookup : ℕ → Lookup)

/-- What a process does about an event: the state it ends with and the reply, if any. -/
def serve (process : Process) : Event → Prog iface (NodeState × Option Reply)
  | .connectivity req now => do
    let (state, reply) ←
      routing (connectivity process.args.dryRunRoutes req now process.state)
    return (state, some reply)
  | .fault mode => do
    let (state, reply) ← fault mode process.state
    return (state, some reply)
  | .stageUpdate => do
    let (state, reply) ← stageUpdate process.state
    return (state, some reply)
  | .confirmUpdate slot => do
    let (state, reply) ← confirmUpdate slot process.state
    return (state, some reply)
  | .rollbackUpdate => do
    let (state, reply) ← rollbackUpdate process.state
    return (state, some reply)
  | .tick now lookup => do
    let state ← routing (autonomyTick process.args process.config now lookup process.state)
    return (state, none)

/-- The generation of a connectivity request that was answered as accepted. -/
def Event.accepted : Event → Option Reply → List ℕ
  | .connectivity req _, some (.ok status) => if status = "accepted" then [req.generation] else []
  | _, _ => []

structure Boot where
  args : Args
  config : Config
  marker : Except String String
  lookup : ℕ → Lookup
  now : ℕ
  /-- An error of reading a state file that exists. -/
  readError : Option String

def Boot.load (boot : Boot) (saved : Option NodeState) : Except String NodeState :=
  match boot.readError, saved with
  | some e, _ => .error e
  | none, some state => .ok state
  | none, none => .ok (NodeState.initial boot.now)

def start (boot : Boot) (saved : Option NodeState) : Prog iface (Except String NodeState) :=
  match boot.load saved with
  | .error e => return .error e
  | .ok loaded =>
    routing (startup boot.args boot.config boot.marker boot.lookup loaded)

/-! ### The world -/

/-- How a save goes: it fails before the file is replaced, or after, when the directory cannot be
synced. -/
inductive SaveFate where
  | ok
  | before (error : String)
  | after (error : String)

structure Outside where
  command : Except CommandError Unit := .ok ()
  save : SaveFate := .ok
  switched : Except String String := .ok "a"
  done : Except String Unit := .ok ()

structure World where
  saved : Option NodeState
  calls : ℕ := 0

def World.next (w : World) : World := { w with calls := w.calls + 1 }

def SaveFate.file (state : NodeState) (old : Option NodeState) : SaveFate → Option NodeState
  | .before _ => old
  | .ok | .after _ => some state

def SaveFate.answer : SaveFate → Except String Unit
  | .ok => .ok ()
  | .before e | .after e => .error e

def perform (env : ℕ → Outside) : Handler iface World
  | .routing (.replace _), w => ((env w.calls).command, w.next)
  | .routing (.del _), w => ((env w.calls).command, w.next)
  | .routing (.save state), w =>
    ((env w.calls).save.answer, { w.next with saved := (env w.calls).save.file state w.saved })
  | .stage _, w => ((env w.calls).done, w.next)
  | .confirm _, w => ((env w.calls).switched, w.next)
  | .rollback, w => ((env w.calls).switched, w.next)
  | .restoreActiveSlot _, w => ((env w.calls).done, w.next)

/-- A node: its process, if one is up, its world, and the generations that were answered as
accepted, in the order of the answers. -/
structure Node where
  process : Option Process
  world : World
  log : List ℕ

def Node.off (saved : Option NodeState) : Node := ⟨none, { saved := saved }, []⟩

/-- What happens to a node. A process may stop after some number of calls, inside a request or
inside its startup. -/
inductive Step where
  | serve (event : Event) (stop : Option ℕ)
  | start (boot : Boot) (stop : Option ℕ)
  | stop

/-- One step. A request to a node without a process and a second process have no effect. -/
def Node.step (env : ℕ → Outside) (node : Node) : Step → Node
  | .serve event stop =>
    match node.process with
    | none => node
    | some process =>
      let ended := attempt (perform env) stop (Lifetime.serve process event) node.world
      match ended.1 with
      | none => { node with process := none, world := ended.2 }
      | some (state, reply) =>
        { process := some { process with state := state }, world := ended.2
          log := node.log ++ event.accepted reply }
  | .start boot stop =>
    match node.process with
    | some _ => node
    | none =>
      let ended := attempt (perform env) stop (Lifetime.start boot node.world.saved) node.world
      match ended.1 with
      | some (.ok state) =>
        { node with process := some ⟨state, boot.args, boot.config⟩, world := ended.2 }
      | _ => { node with world := ended.2 }
  | .stop => { node with process := none }

def Node.run (env : ℕ → Outside) (node : Node) (steps : List Step) : Node :=
  steps.foldl (Node.step env) node

/-! ### What a program leaves behind

The crash condition of all programs is `Kept`: the state file is as before, or it holds a state of
at least the generation that the program started from. -/

def Clean (env : ℕ → Outside) : Prop := ∀ n e, (env n).save ≠ .after e

/-- The file is as before, or holds a state of at least this generation. -/
def Kept (generation : ℕ) (old : Option NodeState) (w : World) : Prop :=
  w.saved = old ∨ ∃ state, w.saved = some state ∧ generation ≤ state.generation

def Settled (m : NodeState) (old : Option NodeState) (m' : NodeState) (w : World) : Prop :=
  w.saved = some m' ∨ (w.saved = old ∧ m' = m)

/-- The end of a program that started from the state `m`: the generation did not fall, and if saves
are clean memory and file are in step. -/
structure Ends (env : ℕ → Outside) (m : NodeState) (old : Option NodeState) (m' : NodeState)
    (w : World) : Prop where
  generation : m.generation ≤ m'.generation
  settled : Clean env → Settled m old m' w

section Programs

variable {env : ℕ → Outside} {m : NodeState} {old : Option NodeState} {w : World}

theorem Ends.same (hw : w.saved = old) : Ends env m old m w :=
  ⟨le_rfl, fun _ => .inr ⟨hw, rfl⟩⟩

def routes (env : ℕ → Outside) : Handler Fallback.iface World := fun c w => perform env (.routing c) w

variable {α : Type} {J : World → Prop} {p : Prog Fallback.iface α}

theorem meets_routing {Q : α → World → Prop} (hp : Meets (routes env) J Q p w) :
    Meets (perform env) J Q (routing p) w := hp.embed

def Quiet : Fallback.Call → Prop
  | .save _ => False
  | _ => True

abbrev Saveless (p : Prog Fallback.iface α) : Prop :=
  Always (I := Fallback.iface) Quiet (fun _ => True) p

theorem always_forRoutes {command : FallbackRoute → Prog Fallback.iface (Except CommandError Unit)}
    (hcommand : ∀ route, Saveless (command route)) (failed : String) (dryRun : Bool)
    (list : List FallbackRoute) : Saveless (forRoutes command failed dryRun list) := by
  induction list with
  | nil => exact always_pure trivial
  | cons route rest ih =>
    unfold forRoutes
    cases validate route with
    | error e => exact always_pure trivial
    | ok =>
      split_ifs
      · exact ih
      · refine (hcommand route).bind fun r _ => ?_
        cases r with
        | error e => exact always_pure trivial
        | ok => exact ih

theorem always_remove (dryRun : Bool) (list : List FallbackRoute) :
    Saveless (remove dryRun list) := by
  refine always_forRoutes (fun route => ?_) _ _ _
  exact ⟨trivial, fun _ => trivial⟩

theorem always_apply (dryRun : Bool) (list : List FallbackRoute) :
    Saveless (apply dryRun list) := by
  refine always_forRoutes (fun route => ?_) _ _ _
  exact ⟨trivial, fun _ => trivial⟩

theorem always_transition (dryRun : Bool) (previous desired : List FallbackRoute) :
    Saveless (transition dryRun previous desired) := by
  unfold transition
  cases desired.forM validate with
  | error e => exact always_pure trivial
  | ok =>
    have hboth : Saveless (applyAndRemove dryRun (changedRoutes previous desired)
        (obsoleteRoutes previous desired)) := by
      refine (always_apply dryRun _).bind fun r _ => ?_
      cases r with
      | error e => exact always_pure trivial
      | ok => exact always_remove dryRun _
    refine hboth.bind fun r _ => ?_
    cases r with
    | ok => exact always_pure trivial
    | error e =>
      refine (always_apply dryRun _).bind fun _ _ => ?_
      exact (always_remove dryRun _).bind fun _ _ => always_pure trivial

theorem meets_quiet (hp : Saveless p)
    (hJ : ∀ w', w'.saved = w.saved → J w') :
    Meets (routes env) J (fun _ w' => w'.saved = w.saved) p w := by
  have hstep : ∀ (c : Fallback.Call) (w' : World), Quiet c → w'.saved = w.saved →
      (routes env c w').2.saved = w.saved := by
    intro c w' hc hw'
    cases c with
    | replace route => exact hw'
    | del route => exact hw'
    | save state => exact hc.elim
  have hmeets := hp.meets (h := routes env) (J := fun w' => w'.saved = w.saved) hstep rfl
  exact (hmeets.mono fun _ _ _ h => h.2).weaken hJ

/-- What is known after a save, with the file as it was before. -/
structure Wrote (env : ℕ → Outside) (state : NodeState) (old : Option NodeState)
    (r : Except String Unit) (w : World) : Prop where
  ok : r = .ok () → w.saved = some state
  error : ∀ e, r = .error e → Clean env → w.saved = old

variable {generation : ℕ} {state : NodeState}

theorem meets_save (hw : Kept generation old w) (hstate : generation ≤ state.generation) :
    Meets (routes env) (Kept generation old) (Wrote env state w.saved)
      (Fallback.Ask.save state) w := by
  refine ⟨hw, ?_, ?_⟩
  · show Kept generation old { w.next with saved := (env w.calls).save.file state w.saved }
    cases (env w.calls).save with
    | before e => exact hw
    | ok => exact .inr ⟨state, rfl, hstate⟩
    | after e => exact .inr ⟨state, rfl, hstate⟩
  · show Wrote env state w.saved (env w.calls).save.answer
      { w.next with saved := (env w.calls).save.file state w.saved }
    cases hfate : (env w.calls).save with
    | ok => exact ⟨fun _ => rfl, nofun⟩
    | before e => exact ⟨nofun, fun _ _ _ => rfl⟩
    | after e => exact ⟨nofun, fun _ _ hclean => absurd hfate (hclean w.calls e)⟩

variable {w' : World}

theorem Wrote.ends_same {e : String} (h : Wrote env state old (.error e) w)
    (hw : w'.saved = w.saved) : Ends env m old m w' :=
  ⟨le_rfl, fun hclean => .inr ⟨hw.trans (h.error e rfl hclean), rfl⟩⟩

theorem kept_of_saved_eq (hw : Kept generation old w) (h : w'.saved = w.saved) :
    Kept generation old w' := by
  unfold Kept
  rw [h]
  exact hw

theorem meets_connectivity (dryRun : Bool) (req : Connectivity) (now : ℕ) :
    Meets (routes env) (Kept m.generation w.saved)
      (fun r w' => Ends env m w.saved r.1 w' ∧ ∀ status, r.2 = .ok status →
        w'.saved = some r.1 ∧ r.1.generation = req.generation ∧ m.generation < req.generation)
      (connectivity dryRun req now m) w := by
  have hsame : ∀ w' : World, w'.saved = w.saved → Kept m.generation w.saved w' :=
    fun w' h => .inl h
  have hcontact : (m.contact req now).generation = req.generation := by
    unfold NodeState.contact
    split_ifs <;> rfl
  unfold connectivity
  split_ifs with hstale
  · exact meets_pure (hsame w rfl) ⟨.same rfl, nofun⟩
  have hlt : m.generation < req.generation := not_le.mp hstale
  refine (meets_quiet ?_ hsame).bind fun removed w₁ _ hw₁ => ?_
  · split_ifs
    · exact always_remove dryRun m.fallbackRoutes
    · exact always_pure trivial
  cases removed with
  | error e => exact meets_pure (hsame w₁ hw₁) ⟨.same hw₁, nofun⟩
  | ok =>
    refine (meets_save (hsame w₁ hw₁) (hcontact ▸ hlt.le)).bind fun r w₂ hkept hwrote => ?_
    rw [hw₁] at hwrote
    cases r with
    | ok =>
      have hsaved : w₂.saved = some (m.contact req now) := hwrote.ok rfl
      refine meets_pure hkept ⟨⟨hcontact ▸ hlt.le, fun _ => .inl hsaved⟩, fun _ _ => ?_⟩
      exact ⟨hsaved, hcontact, hlt⟩
    | error e =>
      refine (meets_quiet ?_ fun w₃ h => kept_of_saved_eq hkept h).bind fun _ w₃ hkept hw₃ => ?_
      · split_ifs
        · exact always_apply dryRun m.fallbackRoutes
        · exact always_pure trivial
      · exact meets_pure hkept ⟨hwrote.ends_same hw₃, nofun⟩

theorem meets_autonomyTick (args : Args) (config : Config) (now : ℕ) (lookup : ℕ → Lookup) :
    Meets (routes env) (Kept m.generation w.saved) (fun m' w' => Ends env m w.saved m' w')
      (autonomyTick args config now lookup m) w := by
  have hsame : ∀ w' : World, w'.saved = w.saved → Kept m.generation w.saved w' :=
    fun w' h => .inl h
  unfold autonomyTick
  split_ifs
  · exact meets_pure (hsame w rfl) (.same rfl)
  cases desiredFallback config lookup with
  | error e => exact meets_pure (hsame w rfl) (.same rfl)
  | ok desired =>
    dsimp only
    split_ifs
    · exact meets_pure (hsame w rfl) (.same rfl)
    refine (meets_quiet (always_transition _ _ _) hsame).bind fun r w₁ _ hw₁ => ?_
    cases r with
    | error e => exact meets_pure (hsame w₁ hw₁) (.same hw₁)
    | ok =>
      refine (meets_save (hsame w₁ hw₁) (by exact le_rfl)).bind fun r w₂ hkept hwrote => ?_
      rw [hw₁] at hwrote
      cases r with
      | ok => exact meets_pure hkept ⟨le_rfl, fun _ => .inl (hwrote.ok rfl)⟩
      | error e =>
        refine (meets_quiet (always_transition _ _ _)
          fun w₃ h => kept_of_saved_eq hkept h).bind fun _ w₃ hkept hw₃ => ?_
        exact meets_pure hkept (hwrote.ends_same hw₃)

def Started (loaded : NodeState) (old : Option NodeState) (r : Except String NodeState)
    (w : World) : Prop :=
  ∀ m', r = .ok m' → loaded.generation ≤ m'.generation ∧ Settled loaded old m' w

theorem meets_reconstruct (args : Args) (config : Config) (lookup : ℕ → Lookup)
    (hw : Kept m.generation old w) :
    Meets (routes env) (Kept m.generation old) (Started m w.saved)
      (reconstruct args config lookup m) w := by
  unfold reconstruct
  split_ifs
  · refine meets_pure hw fun m' hm' => ?_
    cases hm'
    exact ⟨le_rfl, .inr ⟨rfl, rfl⟩⟩
  cases desiredFallback config lookup with
  | error e => exact meets_pure hw nofun
  | ok desired =>
    refine (meets_quiet (always_apply _ _) fun w₁ h => kept_of_saved_eq hw h).bind
      fun r w₁ hkept hw₁ => ?_
    cases r with
    | error e => exact meets_pure hkept nofun
    | ok =>
      refine (meets_save hkept (by exact le_rfl)).bind fun r w₂ hkept hwrote => ?_
      cases r with
      | error e => exact meets_pure hkept nofun
      | ok =>
        refine meets_pure hkept fun m' hm' => ?_
        cases hm'
        exact ⟨le_rfl, .inl (hwrote.ok rfl)⟩

theorem meets_startup (args : Args) (config : Config) (marker : Except String String)
    (lookup : ℕ → Lookup) :
    Meets (routes env) (Kept m.generation w.saved) (Started m w.saved)
      (startup args config marker lookup m) w := by
  have hw : Kept m.generation w.saved w := .inl rfl
  unfold startup
  cases config.fallbackRoutes.forM validate with
  | error e => exact meets_pure hw nofun
  | ok =>
  cases config.fallbackTargets.forM validateTarget with
  | error e => exact meets_pure hw nofun
  | ok =>
  cases marker with
  | error e => exact meets_pure hw nofun
  | ok slot =>
    dsimp only
    split_ifs
    · exact meets_reconstruct args config lookup hw
    -- the slot of the marker is recorded before the routes are looked at
    refine (meets_save hw (by exact le_rfl)).bind fun r w₁ hkept hwrote => ?_
    cases r with
    | error e => exact meets_pure hkept nofun
    | ok =>
      have hsaved : w₁.saved = some { m with activeSlot := slot } := hwrote.ok rfl
      refine (meets_reconstruct (m := { m with activeSlot := slot }) args config lookup hkept).mono
        fun r w₂ _ hstarted m' hm' => ?_
      obtain ⟨hle, hsettled | ⟨hsame, rfl⟩⟩ := hstarted m' hm'
      · exact ⟨hle, .inl hsettled⟩
      · exact ⟨hle, .inl (hsame.trans hsaved)⟩

theorem meets_start {boot : Boot}
    (hload : ∀ loaded, boot.load w.saved = .ok loaded → generation ≤ loaded.generation) :
    Meets (perform env) (Kept generation w.saved)
      (fun r w' => ∀ m', r = .ok m' → generation ≤ m'.generation ∧
        ∃ loaded, boot.load w.saved = .ok loaded ∧ Settled loaded w.saved m' w')
      (start boot w.saved) w := by
  unfold start
  cases hloaded : boot.load w.saved with
  | error e => exact meets_pure (.inl rfl) nofun
  | ok loaded =>
    have hle : generation ≤ loaded.generation := hload loaded hloaded
    have hstartup : Meets (routes env) (Kept loaded.generation w.saved) (Started loaded w.saved)
        (startup boot.args boot.config boot.marker boot.lookup loaded) w :=
      meets_startup boot.args boot.config boot.marker boot.lookup
    refine ((meets_routing hstartup).mono fun r w' _ hstarted m' hm' => ?_).weaken fun w' hw' => ?_
    · exact ⟨hle.trans (hstarted m' hm').1, loaded, rfl, (hstarted m' hm').2⟩
    · exact hw'.imp_right fun ⟨state, hstate, hge⟩ => ⟨state, hstate, hle.trans hge⟩

theorem meets_slots {c : Call} (hc : (perform env c w).2 = w.next)
    (hJ : ∀ w', w'.saved = w.saved → J w') :
    Meets (perform env) J (fun _ w' => w'.saved = w.saved) (Prog.ask (I := iface) c) w := by
  refine ⟨hJ w rfl, ?_⟩
  show J (perform env c w).2 ∧ (perform env c w).2.saved = w.saved
  rw [hc]
  exact ⟨hJ w.next rfl, rfl⟩

/-- The common part of `confirm_update` and `rollback_update`: save the state with another slot,
and undo the switch when that fails. -/
theorem meets_switch {slot status : String} {undo : String}
    (hw : Kept m.generation old w) (hsaved : w.saved = old) :
    Meets (perform env) (Kept m.generation old) (fun r w' => Ends env m old r.1 w')
      (do match ← Ask.save { m with activeSlot := slot } with
          | .ok () => return ({ m with activeSlot := slot }, (.ok status : Reply))
          | .error err =>
            let restore ← Ask.restoreActiveSlot undo
            return (m, internal (undone err restore))) w := by
  refine (meets_routing (meets_save hw (by exact le_rfl))).bind fun r w₁ hkept hwrote => ?_
  rw [hsaved] at hwrote
  cases r with
  | ok => exact meets_pure hkept ⟨le_rfl, fun _ => .inl (hwrote.ok rfl)⟩
  | error e =>
    refine (meets_slots rfl fun w₂ h => kept_of_saved_eq hkept h).bind fun _ w₂ hkept hw₂ => ?_
    exact meets_pure hkept (hwrote.ends_same hw₂)

theorem meets_confirmUpdate (slot : String) :
    Meets (perform env) (Kept m.generation w.saved) (fun r w' => Ends env m w.saved r.1 w')
      (confirmUpdate slot m) w := by
  refine (meets_slots rfl fun w₁ h => .inl h).bind fun r w₁ hkept hsaved => ?_
  cases r with
  | error e => exact meets_pure hkept (.same hsaved)
  | ok previousSlot => exact meets_switch hkept hsaved

theorem meets_rollbackUpdate :
    Meets (perform env) (Kept m.generation w.saved) (fun r w' => Ends env m w.saved r.1 w')
      (rollbackUpdate m) w := by
  refine (meets_slots rfl fun w₁ h => .inl h).bind fun r w₁ hkept hsaved => ?_
  cases r with
  | error e => exact meets_pure hkept (.same hsaved)
  | ok slot => exact meets_switch hkept hsaved

theorem meets_stageUpdate :
    Meets (perform env) (Kept m.generation w.saved) (fun r w' => Ends env m w.saved r.1 w')
      (stageUpdate m) w := by
  refine (meets_slots rfl fun w₁ h => .inl h).bind fun r w₁ hkept hsaved => ?_
  cases r with
  | error e => exact meets_pure hkept (.same hsaved)
  | ok => exact meets_pure hkept (.same hsaved)

theorem meets_fault (mode : Option String) :
    Meets (perform env) (Kept m.generation w.saved)
      (fun r _ => r.1.generation = m.generation) (fault mode m) w := by
  have hsave : Meets (routes env) (Kept m.generation w.saved) (Wrote env (inject m mode) w.saved)
      (Fallback.Ask.save (inject m mode)) w := meets_save (.inl rfl) (le_refl m.generation)
  refine (meets_routing hsave).bind fun r w₁ hkept _ => ?_
  cases r with
  | ok => exact meets_pure hkept rfl
  | error e => exact meets_pure hkept rfl

structure Served (env : ℕ → Outside) (event : Event) (m : NodeState) (old : Option NodeState)
    (r : NodeState × Option Reply) (w : World) : Prop where
  generation : m.generation ≤ r.1.generation
  accepted : ∀ g ∈ event.accepted r.2, w.saved = some r.1 ∧ r.1.generation = g ∧ m.generation < g
  settled : (∀ mode, event ≠ .fault mode) → Clean env → Settled m old r.1 w

theorem Ends.served {event : Event} {m' : NodeState} {reply : Option Reply}
    (h : Ends env m old m' w) (hnone : event.accepted reply = []) :
    Served env event m old (m', reply) w := by
  refine ⟨h.generation, fun g hg => ?_, fun _ => h.settled⟩
  rw [hnone] at hg
  cases hg

theorem meets_serve (process : Process) (event : Event) :
    Meets (perform env) (Kept process.state.generation w.saved)
      (Served env event process.state w.saved) (serve process event) w := by
  cases event with
  | connectivity req now =>
    refine (meets_routing (meets_connectivity _ req now)).bind fun r w' hkept hr => ?_
    obtain ⟨hends, haccepted⟩ := hr
    refine meets_pure hkept ⟨hends.generation, fun g hg => ?_, fun _ => hends.settled⟩
    cases hreply : r.2 with
    | error e =>
      rw [hreply] at hg
      cases hg
    | ok status =>
      rw [hreply] at hg
      unfold Event.accepted at hg
      dsimp only at hg
      split_ifs at hg with hstatus
      · obtain rfl := mem_singleton.mp hg
        exact haccepted status hreply
      · cases hg
  | fault mode =>
    refine (meets_fault mode).bind fun r w' hkept hr => ?_
    refine meets_pure hkept ⟨hr.ge, nofun, fun hne => ?_⟩
    exact absurd rfl (hne mode)
  | stageUpdate =>
    exact meets_stageUpdate.bind fun r w' hkept hr => meets_pure hkept (hr.served rfl)
  | confirmUpdate slot =>
    exact (meets_confirmUpdate slot).bind fun r w' hkept hr => meets_pure hkept (hr.served rfl)
  | rollbackUpdate =>
    exact meets_rollbackUpdate.bind fun r w' hkept hr => meets_pure hkept (hr.served rfl)
  | tick now lookup =>
    refine (meets_routing (meets_autonomyTick _ _ now lookup)).bind fun r w' hkept hr => ?_
    exact meets_pure hkept (hr.served rfl)

end Programs

end Lifetime
end StarFabric.Onboard

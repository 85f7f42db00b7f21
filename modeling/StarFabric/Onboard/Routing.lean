import StarFabric.Lib.Fold
import StarFabric.Lib.Prog
import StarFabric.Go.Netip

/-!
# Fallback routes of the onboard runtime

`onboard/src/routing.rs`, `onboard/src/state.rs` and the parts of `onboard/src/main.rs` that decide
about fallback routes. A handler holds the lock of the state, so the state is passed through
explicitly. What is left as calls (`Call`) are the two `ip` commands and the write of the state
file.
-/

namespace StarFabric.Onboard
namespace Fallback

open EffectProgram ExceptFold Go

/-! ### Text -/

/-- `IpAddr::from_str`. It takes no zone, and apart from that what `netip.ParseAddr` takes. -/
def parseIp (text : String) : Option Addr :=
  match parseAddr text with
  | .ok (.v4 octets) => some (.v4 octets)
  | .ok (.v6 octets zone) => if zone = "" then some (.v6 octets zone) else none
  | .error _ => none

/-- `u8::from_str`: an optional plus sign, then at least one digit, within range. -/
def parseU8 (text : String) : Option ℕ :=
  let body := match text.toList with
    | '+' :: rest => rest
    | all => all
  if body.isEmpty then none
  else (digits? 0 body).bind fun n => if n ≤ 255 then some n else none

def splitOnceSlash (text : String) : Option (String × String) :=
  if text.toList.contains '/' then
    some (String.ofList (text.toList.takeWhile (· != '/')),
      String.ofList ((text.toList.dropWhile (· != '/')).drop 1))
  else none

def interfaceChar (c : Char) : Bool := c.isAlphanum || c == '_' || c == '-' || c == '.'

/-! ### Routes -/

/-- `FallbackRoute`. The field `cidr` is `prefix` in the source. -/
structure FallbackRoute where
  cidr : String
  via : String
  interface : String
  metric : ℕ := 42760
  deriving DecidableEq, Repr

/-- `FallbackTarget`. The field `cidr` is `prefix` in the source. -/
structure FallbackTarget where
  cidr : String
  gatewayLoopback : String
  metric : ℕ := 42760
  deriving DecidableEq, Repr

def validate (route : FallbackRoute) : Except String Unit :=
  match splitOnceSlash route.cidr with
  | none => .error "prefix must be CIDR"
  | some (address, length) =>
  match parseIp address with
  | none => .error "invalid CIDR address"
  | some network =>
  match parseU8 length with
  | none => .error "invalid CIDR prefix length"
  | some prefixLength =>
  let maximum := if network.is6 then 128 else 32
  if maximum < prefixLength then .error "CIDR prefix length is out of range" else
  match parseIp route.via with
  | none => .error "invalid next-hop"
  | some nextHop =>
  if network.is6 != nextHop.is6 then .error "CIDR and next-hop address families differ"
  else if route.interface.isEmpty || 15 < route.interface.utf8ByteSize ||
      !route.interface.toList.all interfaceChar then .error "invalid interface"
  else if route.metric = 0 then .error "route metric must be positive"
  else .ok ()

def validateTarget (target : FallbackTarget) : Except String Unit :=
  validate { cidr := target.cidr, via := target.gatewayLoopback, interface := "lo",
             metric := target.metric }

def FallbackRoute.Valid (route : FallbackRoute) : Prop := validate route = .ok ()

instance FallbackRoute.decidableValid (route : FallbackRoute) : Decidable route.Valid :=
  match h : validate route with
  | .ok () => isTrue h
  | .error _ => isFalse fun hvalid => nomatch hvalid.symm.trans h

/-! ### The routes wanted -/

/-- The fields of a record of `ip -j route get` that are read. -/
structure RouteRecord where
  kind : Option String := none
  gateway : Option String := none
  dev : Option String := none
  deriving DecidableEq, Repr

/-- How `ip route get` ends: not started, with a failing status, or with its output. Output that is
no JSON is an error, output that is no array has no records. -/
inductive Lookup where
  | notRun (error : String)
  | failed
  | output (records : Except String (List RouteRecord))

def resolveReply (target : FallbackTarget) (records : Except String (List RouteRecord)) :
    Except String (Option FallbackRoute) :=
  match records with
  | .error e => .error e
  | .ok [] => .error "empty gateway route lookup"
  | .ok (entry :: _) =>
    -- the kernel knows the gateway and refuses to forward to it
    if entry.kind = some "blackhole" ∨ entry.kind = some "unreachable" ∨
        entry.kind = some "prohibit" then .ok none
    else match entry.gateway, entry.dev with
    | some via, some interface =>
      let route : FallbackRoute :=
        { cidr := target.cidr, via := via, interface := interface, metric := target.metric }
      match validate route with
      | .error e => .error e
      | .ok () => .ok (some route)
    -- a gateway on the link itself has no next hop
    | _, _ => .ok none

/-- What a lookup gives for a target. An unreachable egress withdraws its old fallback. -/
def Lookup.route (target : FallbackTarget) : Lookup → Except String (Option FallbackRoute)
  | .notRun error => .error error
  -- a failing status is no error of `resolve`, which skips the target
  | .failed => .ok none
  | .output records => resolveReply target records

/-- `resolve`. The `i`-th target is looked up with the answer `lookup i`. -/
def resolve : List FallbackTarget → (ℕ → Lookup) → Except String (List FallbackRoute)
  | [], _ => .ok []
  | target :: rest, lookup => do
    -- each target is checked again, right before its lookup
    validateTarget target
    let found ← (lookup 0).route target
    let routes ← resolve rest fun i => lookup (i + 1)
    return found.toList ++ routes

structure Config where
  fallbackRoutes : List FallbackRoute := []
  fallbackTargets : List FallbackTarget := []

def desiredFallback (config : Config) (lookup : ℕ → Lookup) : Except String (List FallbackRoute) :=
  if config.fallbackTargets.isEmpty then .ok config.fallbackRoutes
  else resolve config.fallbackTargets lookup

/-! ### Routes that pass the check -/

variable {target : FallbackTarget} {route : FallbackRoute}

theorem resolveReply_valid {records : Except String (List RouteRecord)}
    (h : resolveReply target records = .ok (some route)) : route.Valid := by
  unfold resolveReply at h
  split at h
  · cases h
  · cases h
  · split_ifs at h
    · cases h
    · split at h
      · dsimp only at h
        split at h
        · cases h
        · next hvalid =>
          cases h
          exact hvalid
      · cases h

theorem Lookup.route_valid {lookup : Lookup} (h : lookup.route target = .ok (some route)) :
    route.Valid := by
  cases lookup with
  | notRun error => cases h
  | failed => cases h
  | output records => exact resolveReply_valid h

variable {lookup : ℕ → Lookup}

theorem resolve_valid {targets : List FallbackTarget} {routes : List FallbackRoute}
    (h : resolve targets lookup = .ok routes) :
    ∀ route ∈ routes, route.Valid := by
  induction targets generalizing lookup routes with
  | nil =>
    cases h
    exact nofun
  | cons target rest ih =>
    obtain ⟨_, -, h⟩ := bind_eq_ok.mp h
    obtain ⟨found, hfound, h⟩ := bind_eq_ok.mp h
    obtain ⟨others, hothers, h⟩ := bind_eq_ok.mp h
    cases h
    intro route hroute
    rcases List.mem_append.mp hroute with hnew | hold
    · rw [Option.mem_toList] at hnew
      rw [hnew] at hfound
      exact Lookup.route_valid hfound
    · exact ih hothers route hold

theorem desiredFallback_valid {config : Config} {desired : List FallbackRoute}
    (hconfig : config.fallbackRoutes.forM validate = .ok ())
    (h : desiredFallback config lookup = .ok desired) : ∀ route ∈ desired, route.Valid := by
  unfold desiredFallback at h
  split_ifs at h
  · cases h
    exact forM_eq_ok_iff.mp hconfig
  · exact resolve_valid h

/-! ### The state and the calls -/

structure NodeState where
  generation : ℕ
  connected : Bool
  fallbackActive : Bool
  healthy : Bool
  activeSlot : String
  lastContactUnixMs : ℕ
  injectedFault : Option String
  fallbackRoutes : List FallbackRoute
  deriving DecidableEq, Repr

def NodeState.initial (now : ℕ) : NodeState where
  generation := 1
  connected := false
  fallbackActive := false
  healthy := true
  activeSlot := "a"
  lastContactUnixMs := now
  injectedFault := none
  fallbackRoutes := []

/-- How a command fails: it cannot be started, or it ends with a failing status. -/
inductive CommandError where
  | notRun (error : String)
  | status
  deriving DecidableEq, Repr

inductive Call where
  | replace (route : FallbackRoute)
  | del (route : FallbackRoute)
  | save (state : NodeState)

def Call.Answer : Call → Type
  | .replace _ => Except CommandError Unit
  | .del _ => Except CommandError Unit
  | .save _ => Except String Unit

def iface : Interface := ⟨Call, Call.Answer⟩

namespace Ask

def replace (route : FallbackRoute) : Prog iface (Except CommandError Unit) :=
  Prog.ask (I := iface) (.replace route)

def del (route : FallbackRoute) : Prog iface (Except CommandError Unit) :=
  Prog.ask (I := iface) (.del route)

def save (state : NodeState) : Prog iface (Except String Unit) :=
  Prog.ask (I := iface) (.save state)

end Ask

/-! ### Changing the kernel -/

def CommandError.text (failed : String) (route : FallbackRoute) : CommandError → String
  | .notRun e => e
  | .status => failed ++ route.cidr

/-- The loop of `apply` and `remove`: check a route, run the command on it and stop at the first
error. A dry run only checks. -/
def forRoutes (command : FallbackRoute → Prog iface (Except CommandError Unit)) (failed : String)
    (dryRun : Bool) : List FallbackRoute → Prog iface (Except String Unit)
  | [] => return .ok ()
  | route :: rest =>
    match validate route with
    | .error e => return .error e
    | .ok () =>
      -- a dry run goes on to the next route without a command
      if dryRun then forRoutes command failed dryRun rest
      else do
        match ← command route with
        | .error e => return .error (e.text failed route)
        | .ok () => forRoutes command failed dryRun rest

def remove (dryRun : Bool) (routes : List FallbackRoute) : Prog iface (Except String Unit) :=
  forRoutes Ask.del "ip route delete failed for " dryRun routes

def apply (dryRun : Bool) (routes : List FallbackRoute) : Prog iface (Except String Unit) :=
  forRoutes Ask.replace "ip route failed for " dryRun routes

def sameKey (a b : FallbackRoute) : Bool := a.cidr == b.cidr && a.metric == b.metric

/-- The routes of `desired` that `previous` does not have. -/
def changedRoutes (previous desired : List FallbackRoute) : List FallbackRoute :=
  desired.filter fun r => !previous.contains r

/-- The routes of `previous` whose key `desired` does not have. -/
def obsoleteRoutes (previous desired : List FallbackRoute) : List FallbackRoute :=
  previous.filter fun r => !desired.any fun n => sameKey r n

/-- The error of `transition`: what went wrong, and how undoing it went. -/
structure TransitionError where
  error : String
  restored : Except String Unit := .ok ()
  removed : Except String Unit := .ok ()

def applyAndRemove (dryRun : Bool) (changed obsolete : List FallbackRoute) :
    Prog iface (Except String Unit) := do
  match ← apply dryRun changed with
  | .error e => return .error e
  | .ok () => remove dryRun obsolete

def transition (dryRun : Bool) (previous desired : List FallbackRoute) :
    Prog iface (Except TransitionError Unit) :=
  match desired.forM validate with
  | .error e => return .error { error := e }
  | .ok () => do
    match ← applyAndRemove dryRun (changedRoutes previous desired)
        (obsoleteRoutes previous desired) with
    | .ok () => return .ok ()
    | .error e =>
      -- every route of the previous set is written again, whether or not it was touched
      let restored ← apply dryRun previous
      -- the routes that were added have a key that `previous` does not have
      let removed ← remove dryRun (obsoleteRoutes desired previous)
      return .error { error := e, restored := restored, removed := removed }

/-! ### The handlers -/

structure Connectivity where
  connected : Bool
  generation : ℕ

inductive StatusCode where
  | conflict
  | internalServerError
  deriving DecidableEq, Repr

def NodeState.contact (state : NodeState) (req : Connectivity) (now : ℕ) : NodeState :=
  let state := { state with
    generation := req.generation, connected := req.connected, lastContactUnixMs := now }
  if req.connected then { state with fallbackActive := false, fallbackRoutes := [] } else state

def connectivity (dryRun : Bool) (req : Connectivity) (now : ℕ) (state : NodeState) :
    Prog iface (NodeState × Except (StatusCode × String) String) :=
  if req.generation ≤ state.generation then
    return (state, .error (.conflict, "stale or duplicate generation"))
  else do
    let removedFallback := req.connected && state.fallbackActive
    -- the routes go first, and what was removed before an error is not put back
    match ← (if removedFallback then remove dryRun state.fallbackRoutes else pure (.ok ())) with
    | .error e => return (state, .error (.internalServerError, e))
    | .ok () =>
      match ← Ask.save (state.contact req now) with
      | .ok () => return (state.contact req now, .ok "accepted")
      -- here the routes are put back
      | .error err =>
        let restore ← (if removedFallback then apply dryRun state.fallbackRoutes
          else pure (.ok ()))
        return (state, .error (.internalServerError, match restore with
          | .error restore => err ++ "; restore fallback routes: " ++ restore
          | .ok () => err))

/-- The flags of the command line that are about fallback routes. -/
structure Args where
  disconnectHoldSeconds : ℕ := 30
  heartbeatTimeoutSeconds : Option ℕ := none
  dryRunRoutes : Bool := false

def millis (seconds : ℕ) : ℕ := min (seconds * 1000) (2 ^ 64 - 1)

def holdExpired (args : Args) (now : ℕ) (state : NodeState) : Bool :=
  -- `saturating_sub`
  let elapsed := now - state.lastContactUnixMs
  let expired := args.heartbeatTimeoutSeconds.any fun timeout => millis timeout ≤ elapsed
  (!state.connected || expired) && decide (millis args.disconnectHoldSeconds ≤ elapsed)

def NodeState.fallBack (state : NodeState) (desired : List FallbackRoute) : NodeState :=
  { state with connected := false, fallbackActive := true, fallbackRoutes := desired }

def autonomyTick (args : Args) (config : Config) (now : ℕ) (lookup : ℕ → Lookup)
    (state : NodeState) : Prog iface NodeState :=
  if !holdExpired args now state then return state else
  match desiredFallback config lookup with
  -- the error is logged, and the loop goes on to the next tick
  | .error _ => return state
  | .ok desired =>
    if state.fallbackActive && state.fallbackRoutes == desired then return state
    else do
      match ← transition args.dryRunRoutes state.fallbackRoutes desired with
      | .error _ => return state
      | .ok () =>
        match ← Ask.save (state.fallBack desired) with
        | .ok () => return state.fallBack desired
        | .error _ =>
          -- its error is only logged
          let _ ← transition args.dryRunRoutes desired state.fallbackRoutes
          return state

/-- The last part of the startup: the routes of a recorded fallback are put in place again. -/
def reconstruct (args : Args) (config : Config) (lookup : ℕ → Lookup) (loaded : NodeState) :
    Prog iface (Except String NodeState) :=
  if !loaded.fallbackActive then return .ok loaded else
  match desiredFallback config lookup with
  | .error e => return .error e
  | .ok desired => do
    -- the recorded routes are replaced before anything is done about them
    let loaded := { loaded with fallbackRoutes := desired }
    match ← apply args.dryRunRoutes desired with
    | .error e => return .error e
    | .ok () =>
      match ← Ask.save loaded with
      | .error e => return .error e
      | .ok () => return .ok loaded

/-- `main` up to the first request. `loaded` is what `StateStore::load` returns and `marker` what
`active_slot` does. -/
def startup (args : Args) (config : Config) (marker : Except String String) (lookup : ℕ → Lookup)
    (loaded : NodeState) : Prog iface (Except String NodeState) :=
  match config.fallbackRoutes.forM validate, config.fallbackTargets.forM validateTarget, marker with
  | .error e, _, _ => return .error e
  | _, .error e, _ => return .error e
  | _, _, .error e => return .error e
  | .ok (), .ok (), .ok slot =>
    -- the slot marker on disk wins over the recorded slot
    if loaded.activeSlot = slot then reconstruct args config lookup loaded
    else do
      let loaded := { loaded with activeSlot := slot }
      match ← Ask.save loaded with
      | .error e => return .error e
      | .ok () => reconstruct args config lookup loaded

end Fallback
end StarFabric.Onboard

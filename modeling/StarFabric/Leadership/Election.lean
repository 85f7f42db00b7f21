import StarFabric.Leadership.Kubernetes
import Mathlib.Tactic.Linarith

/-!
# At most one leader

Any number of electors run the loop of `Elector.Run` against one API server and by one clock. A flag
stays up until the end of the next attempt, and nothing makes the Lease last that long. If it does
(`Prompt`), a flag that is up is backed by the Lease (`Process.Sound`), so at most one flag is up.
-/

namespace StarFabric.Leadership

open Go EffectProgram Leasing Function

/-! ### The loop of an elector -/

inductive Phase where
  /-- `Run` was not called yet -/
  | created
  /-- waiting for a tick, since the end of the last round -/
  | waiting (since : Time)
  /-- a request was sent, in the attempt that began at `start` -/
  | requesting (start sent : Time) (c : API.Call) (k : API.Answer c → Prog API Outcome)
  /-- the answer is on its way, and the attempt goes on with `p` -/
  | answered (start sent : Time) (p : Prog API Outcome)
  /-- in `onAcquired` -/
  | reloading (start : Time)
  /-- `Run` has returned -/
  | stopped

/-- An elector at work. The field `renewed` keeps the beginning of the attempt by which the flag was
last raised. -/
structure Process where
  leader : Bool := false
  phase : Phase := .created
  renewed : Time := 0

def Process.publish (p : Process) (start now : Time) (leader : Bool) : Process where
  leader := leader
  phase := .waiting now
  renewed := if leader then start else p.renewed

/-- An attempt goes on: with its next request, or with what `Run` does with its outcome. -/
def Process.resume (reloads : Bool) (p : Process) (start now : Time) : Prog API Outcome → Process
  | .call c k => { p with phase := .requesting start now c k }
  | .done outcome =>
    -- `onAcquired` runs when the flag is about to go up
    if outcome.1 = true ∧ p.leader = false ∧ reloads = true then
      { p with phase := .reloading start }
    else p.publish start now outcome.1

/-! ### The system -/

structure State (ι : Type) where
  now : Time
  lease : Option Lease
  process : ι → Process

inductive Action (ι : Type) where
  /-- time passes -/
  | elapse (d : Duration)
  /-- an attempt begins -/
  | tick (i : ι)
  /-- the server answers a request -/
  | answer (i : ι)
  /-- a request fails, with or without being executed -/
  | fail (i : ι) (executed : Bool) (status : ℕ) (message : String)
  /-- an answer arrives -/
  | receive (i : ι)
  /-- `onAcquired` returns -/
  | reloaded (i : ι) (err : Option String)
  /-- the context is done -/
  | stop (i : ι)

section System

variable {ι : Type} [DecidableEq ι]

def State.set (s : State ι) (i : ι) (p : Process) : State ι :=
  { s with process := update s.process i p }

variable (electors : ι → Elector) (reloads : ι → Bool)

def next (s : State ι) : Action ι → Option (State ι)
  | .elapse d => some { s with now := s.now + d }
  | .tick i =>
    match (s.process i).phase with
    | .created | .waiting _ => some (s.set i ((s.process i).resume (reloads i) s.now s.now
        (tryAcquireOrRenew (electors i).config s.now)))
    | _ => none
  | .answer i =>
    match (s.process i).phase with
    | .requesting start sent c k =>
      some { s.set i { s.process i with phase := .answered start sent (k (serve c s.lease).1) } with
        lease := (serve c s.lease).2 }
    | _ => none
  | .fail i executed status message =>
    match (s.process i).phase with
    | .requesting start sent c k =>
      -- with these statuses `write` returns no error
      if status ∈ [200, 201, 409] then none
      else some { s.set i { s.process i with
            phase := .answered start sent (k (failure status message c)) } with
          lease := if executed then (serve c s.lease).2 else s.lease }
    | _ => none
  | .receive i =>
    match (s.process i).phase with
    | .answered start _ p => some (s.set i ((s.process i).resume (reloads i) start s.now p))
    | _ => none
  | .reloaded i err =>
    match (s.process i).phase with
    | .reloading start => some (s.set i ((s.process i).publish start s.now err.isNone))
    | _ => none
  | .stop i =>
    match (s.process i).phase with
    | .waiting _ => some (s.set i { s.process i with leader := false, phase := .stopped })
    | _ => none

/-- How far the clock may go: to the next tick, and to the end of a request. -/
def InTime (e : Elector) (now : Time) : Phase → Prop
  | .waiting since => now ≤ since + e.config.retryPeriod
  | .requesting _ sent _ _ => now ≤ sent + e.timeout
  | .answered _ sent _ => now ≤ sent + e.timeout
  | _ => True

def Timely (s : State ι) : Action ι → Prop
  | .elapse d => 0 ≤ d ∧ ∀ i, InTime (electors i) (s.now + d) (s.process i).phase
  | _ => True

/-- The states of all runs in which every action is allowed. At the beginning there may be any
Lease. -/
inductive Reachable (allowed : State ι → Action ι → Prop) : State ι → Prop where
  | start (now : Time) (lease : Option Lease) : Reachable allowed ⟨now, lease, fun _ => {}⟩
  | step {s s' : State ι} (hs : Reachable allowed s) (a : Action ι) (timely : Timely electors s a)
      (hallowed : allowed s a) (hnext : next electors reloads s a = some s') : Reachable allowed s'

def Config.until (config : Config) (start : Time) : Time :=
  truncated start + config.seconds.toInt * second

/-- `onAcquired` returns more than three retry periods before the Lease of its attempt expires. -/
def Prompt (s : State ι) : Action ι → Prop
  | .reloaded i none => ∀ start, (s.process i).phase = .reloading start →
      s.now + 3 * (electors i).config.retryPeriod < (electors i).config.until start
  | _ => True

end System

/-! ### The Lease as a grant -/

def grantOf (lease : Option Lease) : Option (Grant String Time) :=
  lease.bind fun l => l.expires.toOption.map fun expiry => ⟨l.holderIdentity, expiry⟩

inductive Replaces (config : Config) (start : Time) : Option Lease → Option Lease → Prop where
  | same (lease : Option Lease) : Replaces config start lease lease
  | created : Replaces config start none
      (some { createdLease config start with resourceVersion := 1 })
  | claimed (current : Lease) (may : MayClaim config start current) :
      Replaces config start (some current) (some { claimedLease config start current with
          resourceVersion := current.resourceVersion + 1 })

theorem truncated_mono {t u : Time} (h : t ≤ u) : truncated t ≤ truncated u := by
  have hmono : ∀ a b : ℤ, a ≤ b → a - a % 1000 ≤ b - b % 1000 := by omega
  exact hmono t u h

theorem lt_truncated_add (t : Time) : t < truncated t + microsecond := by
  have hlt : ∀ a : ℤ, a < a - a % 1000 + 1000 := by omega
  exact hlt t

theorem until_mono (config : Config) {t u : Time} (h : t ≤ u) : config.until t ≤ config.until u :=
  Int.add_le_add_right (truncated_mono h) _

section Replaces

variable {config : Config} {start now c u : Time} {lease lease' : Option Lease} {k : String}

theorem Replaces.known (h : Replaces config start lease lease') {l : Lease}
    (hknown : Known Lease.resourceVersion lease l) : Known Lease.resourceVersion lease' l := by
  cases h with
  | same => exact hknown
  | created =>
    obtain ⟨_, hnone, -⟩ := hknown
    cases hnone
  -- the version goes up
  | claimed current may => exact hknown.write (Nat.lt_succ_self _)

theorem Replaces.backed_other (h : Replaces config start lease lease') (hstart : start ≤ now)
    (hk : k ≠ config.identity) (hempty : k ≠ "") (hbacked : Backed now (grantOf lease) k u) :
    Backed now (grantOf lease') k u := by
  cases h with
  | same => exact hbacked
  | created => exact hbacked.replace nofun
  | claimed current may =>
    refine hbacked.replace fun g hg hholder => ?_
    -- whoever had the grant: nobody, the writer, or somebody whose time is over
    obtain ⟨expiry, hexpires, hmay⟩ := may
    have hgrant : grantOf (some current) = some ⟨current.holderIdentity, expiry⟩ := by
      show (current.expires.toOption.map _) = _
      rw [hexpires]
      rfl
    rw [hgrant] at hg
    cases hg
    rcases hmay with hfree | hown | hexpired
    · exact absurd (hholder.symm.trans hfree) hempty
    · exact absurd (hholder.symm.trans hown) hk
    · exact hexpired.trans hstart

theorem Replaces.backed_self (h : Replaces config start lease lease') (hc : c ≤ start)
    (hbacked : Backed now (grantOf lease) config.identity (config.until c)) :
    Backed now (grantOf lease') config.identity (config.until c) := by
  cases h with
  | same => exact hbacked
  | created => exact backed_of_mem rfl rfl (until_mono config hc)
  | claimed current may => exact backed_of_mem rfl rfl (until_mono config hc)

end Replaces

/-! ### The requests of an attempt -/

inductive Sending (config : Config) (lease : Option Lease) (start sent : Time) :
    (c : API.Call) → (API.Answer c → Prog API Outcome) → Prop where
  | get (first : sent = start) : Sending config lease start sent .get (afterGet config start)
  | post : Sending config lease start sent (.post (createdLease config start))
      fun written => .done (afterWrite 201 written)
  | put (current : Lease) (known : Known Lease.resourceVersion lease current)
      (may : MayClaim config start current) :
      Sending config lease start sent (.put (claimedLease config start current))
        fun written => .done (afterWrite 200 written)

inductive Arriving (config : Config) (now : Time) (lease : Option Lease) (start sent : Time) :
    Prog API Outcome → Prop where
  | missing (first : sent = start) :
      Arriving config now lease start sent (afterGet config start ({}, 404, none))
  | read (first : sent = start) (current : Lease)
      (known : Known Lease.resourceVersion lease current) :
      Arriving config now lease start sent (afterGet config start (current, 200, none))
  | refused (err : Option String) : Arriving config now lease start sent (.done (false, err))
  | written (err : Option String)
      (backed : Backed now (grantOf lease) config.identity (config.until start)) :
      Arriving config now lease start sent (.done (true, err))

section Requests

variable {config : Config} {start sent : Time} {lease lease' : Option Lease} {c : API.Call}
  {k : API.Answer c → Prog API Outcome}

theorem Sending.answer (h : Sending config lease start sent c k) (now : Time) :
    Replaces config start lease (serve c lease).2 ∧
      Arriving config now (serve c lease).2 start sent (k (serve c lease).1) := by
  cases h with
  | get first =>
    cases lease with
    | none => exact ⟨.same none, .missing first⟩
    | some l => exact ⟨.same (some l), .read first l known_of_read⟩
  | post =>
    cases lease with
    -- the Lease that was written is the grant
    | none => exact ⟨.created, .written none (backed_of_mem rfl rfl (le_refl _))⟩
    | some l => exact ⟨.same (some l), .refused none⟩
  | put current known may =>
    cases lease with
    | none => exact ⟨.same none, .refused _⟩
    | some l =>
      by_cases hversion : current.resourceVersion = l.resourceVersion
      · -- the version tells that the Lease is the one that was read
        obtain rfl : l = current := known.eq hversion.symm
        have hserve : serve (.put (claimedLease config start l)) (some l) = ((200, none),
            some { claimedLease config start l with resourceVersion := l.resourceVersion + 1 }) :=
          if_pos rfl
        rw [hserve]
        exact ⟨.claimed l may, .written none (backed_of_mem rfl rfl (le_refl _))⟩
      · have hserve : serve (.put (claimedLease config start current)) (some l) =
            ((409, none), some l) := if_neg hversion
        rw [hserve]
        exact ⟨.same (some l), .refused none⟩

theorem Sending.fail (h : Sending config lease start sent c k) {now : Time} {status : ℕ}
    {message : String} (hstatus : status ∉ [200, 201, 409]) :
    Arriving config now lease' start sent (k (failure status message c)) := by
  -- a status that means an error is no success
  have hwrite : ∀ success ∈ [200, 201], afterWrite success (status, some message) =
      (false, some message) := by
    intro success hsuccess
    have hconflict : status ≠ 409 := by
      rintro rfl
      exact hstatus (by decide)
    have hfailed : status ≠ success := by
      rintro rfl
      exact hstatus (List.mem_append_left [409] hsuccess)
    unfold afterWrite
    rw [if_neg hconflict, decide_eq_false hfailed]
  cases h with
  | get first => exact .refused (some message)
  | post =>
    show Arriving _ _ _ _ _ (.done (afterWrite 201 (status, some message)))
    rw [hwrite 201 (by decide)]
    exact .refused (some message)
  | put current known may =>
    show Arriving _ _ _ _ _ (.done (afterWrite 200 (status, some message)))
    rw [hwrite 200 (by decide)]
    exact .refused (some message)

end Requests

/-! ### Sound electors -/

/-- The times of an attempt. If the flag is up, the attempt ends before the Lease of the flag
expires. -/
structure InAttempt (config : Config) (now : Time) (p : Process) (start sent : Time) : Prop where
  begun : start ≤ now
  sentEarly : sent ≤ start + config.retryPeriod
  inTime : now ≤ sent + config.retryPeriod
  flag : p.leader = true →
    p.renewed ≤ start ∧ start + 2 * config.retryPeriod < config.until p.renewed

def SoundPhase (config : Config) (now : Time) (lease : Option Lease) (p : Process) : Phase → Prop
  | .created => p.leader = false
  | .waiting since => now ≤ since + config.retryPeriod ∧
      (p.leader = true → since + 3 * config.retryPeriod < config.until p.renewed)
  | .requesting start sent c k =>
    InAttempt config now p start sent ∧ Sending config lease start sent c k
  | .answered start sent prog =>
    InAttempt config now p start sent ∧ Arriving config now lease start sent prog
  | .reloading start => p.leader = false ∧ start ≤ now ∧
      Backed now (grantOf lease) config.identity (config.until start)
  | .stopped => p.leader = false

/-- An elector whose flag, if it is up, is backed by the Lease. -/
structure Process.Sound (config : Config) (now : Time) (lease : Option Lease) (p : Process) :
    Prop where
  phase : SoundPhase config now lease p p.phase
  backed : p.leader = true → Backed now (grantOf lease) config.identity (config.until p.renewed)
  renewed : p.leader = true → p.renewed ≤ now

def Config.Lasting (config : Config) : Prop :=
  5 * config.retryPeriod + microsecond ≤ config.seconds.toInt * second

instance Config.decidableLasting (config : Config) : Decidable config.Lasting :=
  inferInstanceAs (Decidable (_ ≤ _))

theorem Config.Lasting.lt_until {config : Config} (h : config.Lasting) (start : Time) :
    start + 5 * config.retryPeriod < config.until start := by
  have htruncated := lt_truncated_add start
  unfold Config.Lasting at h
  unfold Config.until
  linarith

section SoundPhase

variable {config : Config} {now now' start sent : Time} {lease lease' : Option Lease} {p : Process}
  {phase : Phase}

theorem SoundPhase.lt_until (h : SoundPhase config now lease p phase)
    (hretry : 0 < config.retryPeriod) (hleader : p.leader = true) :
    now < config.until p.renewed := by
  cases phase with
  | created => cases hleader.symm.trans h
  | waiting since =>
    -- one retry period of the three has passed at most
    have hlast := h.2 hleader
    linarith [h.1]
  | requesting start sent c k =>
    -- both requests take at most a retry period
    have hlast := (h.1.flag hleader).2
    linarith [h.1.sentEarly, h.1.inTime]
  | answered start sent prog =>
    have hlast := (h.1.flag hleader).2
    linarith [h.1.sentEarly, h.1.inTime]
  | reloading start => exact absurd (hleader.symm.trans h.1) nofun
  | stopped => cases hleader.symm.trans h

variable {e : Elector}

theorem InAttempt.elapse (h : InAttempt e.config now p start sent)
    (htimeout : e.timeout = e.config.retryPeriod) (hnow : now ≤ now')
    (hin : now' ≤ sent + e.timeout) : InAttempt e.config now' p start sent :=
  ⟨h.begun.trans hnow, h.sentEarly, htimeout ▸ hin, h.flag⟩

theorem SoundPhase.elapse (h : SoundPhase e.config now lease p phase)
    (htimeout : e.timeout = e.config.retryPeriod) (hnow : now ≤ now') (hin : InTime e now' phase) :
    SoundPhase e.config now' lease p phase := by
  cases phase with
  | created => exact h
  | waiting since => exact ⟨hin, h.2⟩
  | requesting start sent c k => exact ⟨h.1.elapse htimeout hnow hin, h.2⟩
  | answered start sent prog =>
    refine ⟨h.1.elapse htimeout hnow hin, ?_⟩
    cases h.2 with
    | missing first => exact .missing first
    | read first current known => exact .read first current known
    | refused err => exact .refused err
    | written err backed => exact .written err (backed.later hnow)
  | reloading start => exact ⟨h.1, h.2.1.trans hnow, h.2.2.later hnow⟩
  | stopped => exact h

theorem SoundPhase.frame (h : SoundPhase config now lease p phase)
    (hknown : ∀ l, Known Lease.resourceVersion lease l → Known Lease.resourceVersion lease' l)
    (hbacked : ∀ u, Backed now (grantOf lease) config.identity u →
      Backed now (grantOf lease') config.identity u) : SoundPhase config now lease' p phase := by
  cases phase with
  | created => exact h
  | waiting since => exact h
  | requesting start sent c k =>
    refine ⟨h.1, ?_⟩
    cases h.2 with
    | get first => exact .get first
    | post => exact .post
    | put current known may => exact .put current (hknown current known) may
  | answered start sent prog =>
    refine ⟨h.1, ?_⟩
    cases h.2 with
    | missing first => exact .missing first
    | read first current known => exact .read first current (hknown current known)
    | refused err => exact .refused err
    | written err backed => exact .written err (hbacked _ backed)
  | reloading start => exact ⟨h.1, h.2.1, hbacked _ h.2.2⟩
  | stopped => exact h

end SoundPhase

namespace Process.Sound

variable {config : Config} {now now' start sent : Time} {lease lease' : Option Lease} {p : Process}

theorem elapse {e : Elector} (h : p.Sound e.config now lease)
    (htimeout : e.timeout = e.config.retryPeriod) (hnow : now ≤ now')
    (hin : InTime e now' p.phase) : p.Sound e.config now' lease where
  phase := h.phase.elapse htimeout hnow hin
  backed hleader := (h.backed hleader).later hnow
  renewed hleader := (h.renewed hleader).trans hnow

theorem frame (h : p.Sound config now lease) {other : Config}
    (hlease : Replaces other start lease lease') (hstart : start ≤ now)
    (hother : config.identity ≠ other.identity) (hidentity : config.identity ≠ "") :
    p.Sound config now lease' where
  phase := h.phase.frame (fun _ => hlease.known) fun _ =>
    hlease.backed_other hstart hother hidentity
  backed hleader := hlease.backed_other hstart hother hidentity (h.backed hleader)
  renewed := h.renewed

theorem publish (leader : Bool) (hretry : 0 < config.retryPeriod)
    (hleader : leader = true → start ≤ now ∧ now + 3 * config.retryPeriod < config.until start ∧
      Backed now (grantOf lease) config.identity (config.until start)) :
    (p.publish start now leader).Sound config now lease := by
  have hnow : now ≤ now + config.retryPeriod := le_add_of_nonneg_right hretry.le
  -- a flag that goes down needs nothing
  cases leader with
  | false => exact ⟨⟨hnow, nofun⟩, nofun, nofun⟩
  | true =>
    obtain ⟨hstart, hlast, hbacked⟩ := hleader rfl
    exact ⟨⟨hnow, fun _ => hlast⟩, fun _ => hbacked, fun _ => hstart⟩

theorem tick (h : p.Sound config now lease) (reloads : Bool) (hretry : 0 < config.retryPeriod)
    (hphase : p.phase = .created ∨ ∃ since, p.phase = .waiting since) :
    (p.resume reloads now now (tryAcquireOrRenew config now)).Sound config now lease := by
  have hnow : now ≤ now + config.retryPeriod := le_add_of_nonneg_right hretry.le
  refine ⟨⟨⟨le_refl now, hnow, hnow, fun hleader => ⟨h.renewed hleader, ?_⟩⟩, .get rfl⟩, h.backed,
    h.renewed⟩
  -- a flag that is up has three retry periods left at the beginning of the wait, two at its end
  have hp := h.phase
  rcases hphase with hcreated | ⟨since, hwaiting⟩
  · rw [hcreated] at hp
    cases hleader.symm.trans hp
  · rw [hwaiting] at hp
    have hlast : since + 3 * config.retryPeriod < config.until p.renewed := hp.2 hleader
    have hin : now ≤ since + config.retryPeriod := hp.1
    show now + 2 * config.retryPeriod < config.until p.renewed
    linarith

variable {prog : Prog API Outcome}

theorem answered (h : p.Sound config now lease) {c : API.Call} {k : API.Answer c → Prog API Outcome}
    (hphase : p.phase = .requesting start sent c k) (hlease : Replaces config start lease lease')
    (harriving : Arriving config now lease' start sent prog) :
    Process.Sound config now lease' { p with phase := .answered start sent prog } := by
  have hp := h.phase
  rw [hphase] at hp
  have hattempt := hp.1
  exact ⟨⟨⟨hattempt.begun, hattempt.sentEarly, hattempt.inTime, hattempt.flag⟩, harriving⟩,
    fun hleader => hlease.backed_self (hattempt.flag hleader).1 (h.backed hleader), h.renewed⟩

theorem receive (h : p.Sound config now lease) (reloads : Bool) (hretry : 0 < config.retryPeriod)
    (hlasting : config.Lasting) (hphase : p.phase = .answered start sent prog) :
    (p.resume reloads start now prog).Sound config now lease := by
  have hp := h.phase
  rw [hphase] at hp
  obtain ⟨hattempt, harriving⟩ := hp
  have hnow : now ≤ now + config.retryPeriod := le_add_of_nonneg_right hretry.le
  -- the attempt ends without success, or goes on with its second request
  have hrefused : ∀ err, (p.resume reloads start now (.done (false, err))).Sound config now lease :=
    fun err => publish false hretry nofun
  have hsend : ∀ {c : API.Call} {k : API.Answer c → Prog API Outcome}, sent = start →
      Sending config lease start now c k →
      (p.resume reloads start now (.call c k)).Sound config now lease := by
    intro c k hfirst hsending
    refine ⟨⟨⟨hattempt.begun, ?_, hnow, hattempt.flag⟩, hsending⟩, h.backed, h.renewed⟩
    rw [← hfirst]
    exact hattempt.inTime
  cases harriving with
  | missing first => exact hsend first .post
  | read first current known =>
    rcases afterGet_read config start current with ⟨err, hget⟩ | ⟨hmay, hget⟩
    · rw [hget]
      exact hrefused err
    · rw [hget]
      exact hsend first (.put current known hmay)
  | refused err => exact hrefused err
  | written err backed =>
    -- two requests have passed, and the Lease lasts five retry periods
    have hround : start ≤ now ∧ now + 3 * config.retryPeriod < config.until start ∧
        Backed now (grantOf lease) config.identity (config.until start) := by
      refine ⟨hattempt.begun, ?_, backed⟩
      have hlast := hlasting.lt_until start
      linarith [hattempt.sentEarly, hattempt.inTime]
    by_cases hreload : p.leader = false ∧ reloads = true
    · -- the flag stays down until `onAcquired` returns
      have hresume : p.resume reloads start now (.done (true, err)) =
          { p with phase := .reloading start } := if_pos ⟨rfl, hreload⟩
      rw [hresume]
      exact ⟨⟨hreload.1, hattempt.begun, backed⟩, h.backed, h.renewed⟩
    · have hresume : p.resume reloads start now (.done (true, err)) =
          p.publish start now true := if_neg fun hcond => hreload hcond.2
      rw [hresume]
      exact publish true hretry fun _ => hround

end Process.Sound

section Runs

variable {ι : Type} [DecidableEq ι] {electors : ι → Elector} {reloads : ι → Bool} {s s' : State ι}

def State.Sound (electors : ι → Elector) (s : State ι) : Prop :=
  ∀ i, (s.process i).Sound (electors i).config s.now s.lease

theorem State.Sound.set (h : s.Sound electors) {i : ι} {p : Process}
    (hp : p.Sound (electors i).config s.now s.lease) : (s.set i p).Sound electors := by
  intro j
  by_cases hj : j = i
  · subst hj
    show (update s.process j p j).Sound _ _ _
    rw [update_self]
    exact hp
  · show (update s.process i p j).Sound _ _ _
    rw [update_of_ne hj]
    exact h j

omit [DecidableEq ι] in
theorem State.Sound.sending (h : s.Sound electors) {i : ι} {start sent : Time} {c : API.Call}
    {k : API.Answer c → Prog API Outcome}
    (hphase : (s.process i).phase = .requesting start sent c k) :
    InAttempt (electors i).config s.now (s.process i) start sent ∧
      Sending (electors i).config s.lease start sent c k := by
  have hp := (h i).phase
  rw [hphase] at hp
  exact hp

section Requests

variable (hchecked : ∀ i, (electors i).Checked)
  (hidentity : Function.Injective fun i => (electors i).config.identity)

include hchecked hidentity

theorem State.Sound.answered (h : s.Sound electors) {i : ι} {start sent : Time} {c : API.Call}
    {k : API.Answer c → Prog API Outcome}
    (hphase : (s.process i).phase = .requesting start sent c k)
    {lease : Option Lease} (hlease : Replaces (electors i).config start s.lease lease)
    {prog : Prog API Outcome}
    (harriving : Arriving (electors i).config s.now lease start sent prog) :
    State.Sound electors
      { s.set i { s.process i with phase := .answered start sent prog } with lease := lease } := by
  have hstart : start ≤ s.now := (h.sending hphase).1.begun
  intro j
  by_cases hj : j = i
  · subst hj
    show (update s.process j _ j).Sound _ _ _
    rw [update_self]
    exact (h j).answered hphase hlease harriving
  · -- the others keep their backing, since the Lease was free to take
    show (update s.process i _ j).Sound _ _ _
    rw [update_of_ne hj]
    exact (h j).frame hlease hstart (fun heq => hj (hidentity heq)) (hchecked j).identity

theorem State.Sound.step (hlasting : ∀ i, (electors i).config.Lasting) (h : s.Sound electors)
    (a : Action ι) (timely : Timely electors s a) (prompt : Prompt electors s a)
    (hnext : next electors reloads s a = some s') : s'.Sound electors := by
  have hretry : ∀ i, 0 < (electors i).config.retryPeriod := fun i => (hchecked i).retryPeriod
  cases a with
  | elapse d =>
    cases hnext
    intro i
    exact (h i).elapse (hchecked i).timeout (le_add_of_nonneg_right timely.1) (timely.2 i)
  | tick i =>
    unfold next at hnext
    dsimp only at hnext
    split at hnext
    · cases hnext
      exact h.set ((h i).tick (reloads i) (hretry i) (.inl ‹_›))
    · cases hnext
      exact h.set ((h i).tick (reloads i) (hretry i) (.inr ⟨_, ‹_›⟩))
    · cases hnext
  | answer i =>
    unfold next at hnext
    dsimp only at hnext
    split at hnext
    · rename_i start sent c k hphase
      cases hnext
      obtain ⟨hlease, harriving⟩ := (h.sending hphase).2.answer s.now
      exact h.answered hchecked hidentity hphase hlease harriving
    · cases hnext
  | fail i executed status message =>
    unfold next at hnext
    dsimp only at hnext
    split at hnext
    · rename_i start sent c k hphase
      have hsending := (h.sending hphase).2
      split_ifs at hnext with hstatus hexecuted
      · cases hnext
        exact h.answered hchecked hidentity hphase (hsending.answer s.now).1 (hsending.fail hstatus)
      · cases hnext
        exact h.answered hchecked hidentity hphase (.same s.lease) (hsending.fail hstatus)
    · cases hnext
  | receive i =>
    unfold next at hnext
    dsimp only at hnext
    split at hnext
    · cases hnext
      exact h.set ((h i).receive (reloads i) (hretry i) (hlasting i) ‹_›)
    · cases hnext
  | reloaded i err =>
    unfold next at hnext
    dsimp only at hnext
    split at hnext
    · rename_i start hphase
      cases hnext
      have hp := (h i).phase
      rw [hphase] at hp
      refine h.set (.publish _ (hretry i) fun hnone => ⟨hp.2.1, ?_, hp.2.2⟩)
      cases err with
      | some err => cases hnone
      | none => exact prompt start hphase
    · cases hnext
  | stop i =>
    unfold next at hnext
    dsimp only at hnext
    split at hnext
    · cases hnext
      exact h.set ⟨rfl, nofun, nofun⟩
    · cases hnext

theorem Reachable.sound (hlasting : ∀ i, (electors i).config.Lasting)
    (hs : Reachable electors reloads (Prompt electors) s) : s.Sound electors := by
  induction hs with
  -- no flag is up at the beginning
  | start now lease => exact fun i => ⟨rfl, nofun, nofun⟩
  | step hs a timely prompt hnext ih =>
    exact ih.step hchecked hidentity hlasting a timely prompt hnext

end Requests

/-- **At most one leader.** Electors with different identities, each with a Lease that lasts five
retry periods, share a Lease. Then in every run in which `onAcquired` returns in time, at most one
flag is up. -/
theorem at_most_one_leader {hosts : ι → Host} {given : ι → Config}
    (hnew : ∀ i, new (hosts i) (given i) = .ok (electors i))
    (hidentity : Function.Injective fun i => (electors i).config.identity)
    (hlasting : ∀ i, (electors i).config.Lasting)
    (hs : Reachable electors reloads (Prompt electors) s) {i j : ι}
    (hi : (s.process i).leader = true) (hj : (s.process j).leader = true) : i = j := by
  have hchecked : ∀ i, (electors i).Checked := fun i => checked_of_new (hnew i)
  have hsound := hs.sound hchecked hidentity hlasting
  -- a flag that is up comes down before its Lease expires
  have hbefore : ∀ {i}, (s.process i).leader = true →
      s.now < (electors i).config.until (s.process i).renewed :=
    fun {i} hleader => (hsound i).phase.lt_until (hchecked i).retryPeriod hleader
  exact hidentity (((hsound i).backed hi).unique ((hsound j).backed hj) (hbefore hi) (hbefore hj))

end Runs

/-! ### Two electors -/

def toyHost : Host where
  getenv _ := ""
  parseURL _ := .ok ⟨"https", "kubernetes", "kubernetes"⟩
  parseRequestURI _ := .ok ()
  readFile _ := .ok "text"
  trimSpace := id
  appendCertsFromPEM _ := true

def toyConfig (i : Bool) : Config where
  apiEndpoint := "https://kubernetes"
  leaseNamespace := "network"
  leaseName := "sf"
  identity := if i then "pod-b" else "pod-a"

def toyElector (i : Bool) : Elector where
  config := defaultDurations (withPaths (toyConfig i))
  timeout := 2 * second
  token := "text"

theorem new_toyElector (i : Bool) : new toyHost (toyConfig i) = .ok (toyElector i) := by
  cases i <;> decide +kernel

theorem identity_toyElector : Function.Injective fun i => (toyElector i).config.identity := by
  intro i j h
  cases i <;> cases j <;> first
    | rfl
    | exact absurd h (by decide +kernel)

theorem at_most_one_leader_created :
    ∃ s, Reachable toyElector (fun _ => true) (Prompt toyElector) s ∧
      (s.process false).leader = true ∧ ∀ j, (s.process j).leader = true → false = j := by
  have h₀ : Reachable toyElector (fun _ => true) (Prompt toyElector) ⟨0, none, fun _ => {}⟩ :=
    .start 0 none
  have h₁ := h₀.step (.tick false) trivial trivial rfl
  have h₂ := h₁.step (.answer false) trivial trivial rfl
  have h₃ := h₂.step (.receive false) trivial trivial rfl
  have h₄ := h₃.step (.answer false) trivial trivial rfl
  have h₅ := h₄.step (.receive false) trivial trivial rfl
  have h₆ := h₅.step (.reloaded false none) trivial (by rintro start ⟨⟩; decide) rfl
  refine ⟨_, h₆, rfl, fun j hj => ?_⟩
  exact at_most_one_leader new_toyElector identity_toyElector (fun i => by cases i <;> decide) h₆
    rfl hj

/-- The first elector creates the Lease, and its `onAcquired` takes more than the fifteen seconds of
the Lease. Meanwhile the second elector takes the Lease. Then both flags are up. -/
theorem two_leaders_after_slow_reload :
    (∀ i, new toyHost (toyConfig i) = .ok (toyElector i)) ∧
      Function.Injective (fun i => (toyElector i).config.identity) ∧
      ∃ s, Reachable toyElector (fun _ => true) (fun _ _ => True) s ∧
        (s.process false).leader = true ∧ (s.process true).leader = true := by
  refine ⟨new_toyElector, identity_toyElector, ?_⟩
  have h₀ : Reachable toyElector (fun _ => true) (fun _ _ => True) ⟨0, none, fun _ => {}⟩ :=
    .start 0 none
  have h₁ := h₀.step (.tick false) trivial trivial rfl
  have h₂ := h₁.step (.answer false) trivial trivial rfl
  have h₃ := h₂.step (.receive false) trivial trivial rfl
  have h₄ := h₃.step (.answer false) trivial trivial rfl
  have h₅ := h₄.step (.receive false) trivial trivial rfl
  -- the first elector is in `onAcquired`
  have h₆ := h₅.step (.elapse (15 * second)) ⟨by decide, fun i => by cases i <;> trivial⟩
    trivial rfl
  have h₇ := h₆.step (.tick true) trivial trivial rfl
  have h₈ := h₇.step (.answer true) trivial trivial rfl
  have h₉ := h₈.step (.receive true) trivial trivial rfl
  have h₁₀ := h₉.step (.answer true) trivial trivial rfl
  have h₁₁ := h₁₀.step (.receive true) trivial trivial rfl
  have h₁₂ := h₁₁.step (.reloaded true none) trivial trivial rfl
  have h₁₃ := h₁₂.step (.reloaded false none) trivial trivial rfl
  exact ⟨_, h₁₃, rfl, rfl⟩

end StarFabric.Leadership

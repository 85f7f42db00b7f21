import StarFabric.Lib.Rely
import StarFabric.Leadership.Kubernetes

/-!
# The Lease changes hands only when it has expired

Attempts of any number of electors interleave, request by request, with any clock readings. An
attempt decides on the version of the Lease that it has read, and the server takes its write only if
that version is still the current one (`Newer`). So what was decided on is what is replaced
(`Takes`).
-/

namespace StarFabric.Leadership

open EffectProgram Go Option

/-! ### The system -/

structure Attempt where
  config : Config
  now : Time

inductive Request where
  | api (c : API.Call)
  | returned (outcome : Outcome)

def Requests : Interface where
  Call := Request
  Answer
    | .api c => API.Answer c
    | .returned _ => Unit

/-- What becomes of a request: it is answered, or it fails, with or without being executed. -/
inductive Fate where
  | answered
  | failed (executed : Bool) (status : ℕ) (message : String)

def attempt (a : Attempt) : Prog Requests Verdict := do
  let outcome ← (tryAcquireOrRenew a.config a.now).embed (K := Requests) Request.api
    fun _ answer => answer
  -- the return is a step of its own, so that it stands in the log
  let _ ← Prog.ask (I := Requests) (.returned outcome)
  return .stop

def respond : Fate → (c : Requests.Call) → Option Lease → Option (Requests.Answer c × Option Lease)
  | .answered, .api c, lease => some (serve c lease)
  | .failed executed status message, .api c, lease =>
    -- with these statuses a request does not count as failed
    if status ∈ [200, 201, 409] then none
    else some (failure status message c, if executed then (serve c lease).2 else lease)
  | _, .returned _, lease => some ((), lease)

def electors : Machine Requests Attempt Fate Empty (Option Lease) where
  program := attempt
  handle := respond
  drift d := d.elim

/-! ### What a request does to the Lease -/

def Newer (old new : Option Lease) : Prop :=
  ∀ l, old = some l → ∃ l', new = some l' ∧ l.resourceVersion ≤ l'.resourceVersion ∧
    (l'.resourceVersion = l.resourceVersion → l' = l)

theorem newer_refl (lease : Option Lease) : Newer lease lease :=
  fun l hl => ⟨l, hl, le_refl _, fun _ => rfl⟩

theorem newer_trans (a b c : Option Lease) (hab : Newer a b) (hbc : Newer b c) : Newer a c := by
  intro l hl
  obtain ⟨l₁, hl₁, hle₁, heq₁⟩ := hab l hl
  obtain ⟨l₂, hl₂, hle₂, heq₂⟩ := hbc l₁ hl₁
  refine ⟨l₂, hl₂, hle₁.trans hle₂, fun hversion => ?_⟩
  -- nothing can lie strictly between equal versions
  have hmid : l₁.resourceVersion = l.resourceVersion := le_antisymm (hversion ▸ hle₂) hle₁
  rw [heq₂ (hversion.trans hmid.symm), heq₁ hmid]

/-- What an attempt may do to the Lease: nothing, or create it, or claim it. -/
inductive Takes (a : Attempt) : Option Lease → Option Lease → Prop
  | nothing (lease : Option Lease) : Takes a lease lease
  | creates : Takes a none (some { createdLease a.config a.now with resourceVersion := 1 })
  | claims (old : Lease) (h : MayClaim a.config a.now old) : Takes a (some old)
      (some { claimedLease a.config a.now old with resourceVersion := old.resourceVersion + 1 })

variable {a : Attempt}

theorem Takes.newer {old new : Option Lease} (h : Takes a old new) : Newer old new := by
  intro l hl
  cases h with
  | nothing lease => exact newer_refl _ l hl
  | creates => cases hl
  | claims old h =>
    cases some.inj hl
    refine ⟨_, rfl, Nat.le_succ _, fun hversion => ?_⟩
    exact absurd hversion (Nat.succ_ne_self _)

variable {fate : Fate} {c : API.Call} {lease lease' : Option Lease} {x : API.Answer c}

theorem respond_cases (h : respond fate (.api c) lease = some (x, lease')) :
    lease' = lease ∨ lease' = (serve c lease).2 := by
  cases fate with
  | answered => exact .inr (Prod.mk.inj (some.inj h)).2.symm
  | failed executed status message =>
    simp only [respond] at h
    -- a request that failed may still have been executed
    split_ifs at h with hstatus hexecuted
    · exact .inr (Prod.mk.inj (some.inj h)).2.symm
    · exact .inl (Prod.mk.inj (some.inj h)).2.symm

theorem takes_get (a : Attempt) (lease : Option Lease) : Takes a lease (serve .get lease).2 := by
  cases lease with
  | none => exact .nothing none
  | some l => exact .nothing (some l)

theorem takes_post (a : Attempt) (lease : Option Lease) :
    Takes a lease (serve (.post (createdLease a.config a.now)) lease).2 := by
  cases lease with
  | none => exact .creates
  | some l => exact .nothing (some l)

theorem takes_put {read : Lease} (hclaim : MayClaim a.config a.now read)
    (hnewer : Newer (some read) lease) :
    Takes a lease (serve (.put (claimedLease a.config a.now read)) lease).2 := by
  obtain ⟨l, rfl, -, heq⟩ := hnewer read rfl
  by_cases hversion : read.resourceVersion = l.resourceVersion
  · -- the version is the one that was read, so the Lease is
    cases heq hversion.symm
    have hserve : serve (.put (claimedLease a.config a.now read)) (some read) = ((200, none),
        some { claimedLease a.config a.now read with
          resourceVersion := read.resourceVersion + 1 }) := if_pos rfl
    rw [hserve]
    exact .claims read hclaim
  · -- somebody has written since, and the server refuses
    have hserve : serve (.put (claimedLease a.config a.now read)) (some l) =
        ((409, none), some l) := if_neg hversion
    rw [hserve]
    exact .nothing (some l)

/-! ### What an attempt does -/

def Lawful (a : Attempt) (_ : List (Asked Requests)) (c : Requests.Call) (_ : Requests.Answer c)
    (old new : Option Lease) : Prop := Takes a old new

def onward : Rely (Option Lease) where
  inv _ := True
  rel := Newer
  refl := newer_refl
  trans := newer_trans _ _ _

/-- The attempt, or what is left of it, keeps to the law, from a Lease on. -/
abbrev LawfulFrom (a : Attempt) {α : Type} (p : Prog Requests α) (lease : Option Lease) : Prop :=
  ∀ own, p.Within respond onward (Lawful a) (fun _ _ => True) own lease

abbrev requests (p : Prog API Outcome) : Prog Requests Outcome :=
  p.embed (K := Requests) Request.api fun _ answer => answer

section Within

variable {a : Attempt} {lease : Option Lease}

variable {c : API.Call}

theorem lawful_call {k : API.Answer c → Prog API Outcome}
    (hc : ∀ w, Newer lease w → Takes a w (serve c w).2)
    (hk : ∀ fate w x w', respond fate (.api c) w = some (x, w') → LawfulFrom a (requests (k x)) w')
    : LawfulFrom a (requests (.call c k)) lease := by
  -- between two requests the others have moved the Lease on from `lease` to `w`
  intro own w hw _ _ fate x w' hx
  have htakes : Takes a w w' := by
    rcases respond_cases hx with rfl | rfl
    · exact .nothing _
    · exact hc w hw
  exact ⟨htakes, trivial, htakes.newer, hk fate w x w' hx _⟩

theorem lawful_write {f : API.Answer c → Outcome}
    (hc : ∀ w, Newer lease w → Takes a w (serve c w).2) :
    LawfulFrom a (requests (.call c fun written => .done (f written))) lease :=
  lawful_call hc fun _ _ _ _ _ _ => trivial

theorem lawful_afterGet {fate : Fate} {w w' : Option Lease} {x : API.Answer .get}
    (hx : respond fate (.api .get) w = some (x, w')) :
    LawfulFrom a (requests (afterGet a.config a.now x)) w' := by
  cases fate with
  | failed executed status message =>
    simp only [respond] at hx
    split_ifs at hx <;> cases hx <;> exact fun _ => trivial
  | answered =>
    cases w with
    | none =>
      cases hx
      -- there was no Lease; somebody may have created one by the time of the POST
      exact lawful_write fun w _ => takes_post a w
    | some l =>
      cases hx
      -- what was read decides between giving up and a PUT of the very version that was read
      rcases afterGet_read a.config a.now l with ⟨err, hdone⟩ | ⟨hclaim, hput⟩
      · show LawfulFrom a (requests (afterGet a.config a.now (l, 200, none))) (some l)
        rw [hdone]
        exact fun _ => trivial
      · show LawfulFrom a (requests (afterGet a.config a.now (l, 200, none))) (some l)
        rw [hput]
        exact lawful_write fun w hw => takes_put hclaim hw

theorem lawful_attempt (a : Attempt) (lease : Option Lease) : LawfulFrom a (attempt a) lease := by
  have htry : LawfulFrom a (requests (tryAcquireOrRenew a.config a.now)) lease :=
    lawful_call (fun w _ => takes_get a w) fun _ _ _ _ hx => lawful_afterGet hx
  intro own
  refine (htry own).bind fun outcome more v _ _ => ?_
  -- the return leaves the Lease alone
  intro w _ _ _ fate x w' hx
  have hw : w' = w := by
    cases fate <;> exact (Prod.mk.inj (some.inj hx)).2.symm
  subst hw
  exact ⟨.nothing _, trivial, newer_refl _, trivial⟩

end Within

theorem electors_relies : electors.Relies onward (fun _ => True) Lawful where
  drift d := d.elim
  program a own lease _ _ := lawful_attempt a lease own

/-! ### What an attempt returns -/

def Confirmed (a : Attempt) : (c : Requests.Call) → Requests.Answer c → Prop
  | .api (.post value), answer => answer.1 = 201 ∧ value.holderIdentity = a.config.identity
  | .api (.put value), answer => answer.1 = 200 ∧ value.holderIdentity = a.config.identity
  | _, _ => False

def confirmedGate (a : Attempt) : Gate Requests where
  opens := Confirmed a
  guards
    | .returned outcome => outcome.1 = true
    | .api _ => False

theorem afterWrite_true {success : ℕ} {answer : ℕ × Option String}
    (h : (afterWrite success answer).1 = true) : answer.1 = success := by
  unfold afterWrite at h
  split_ifs at h
  exact of_decide_eq_true h

/-- The outcome is `true` only if a write was confirmed. -/
def Claims (outcome : Outcome) (opened : Prop) : Prop := outcome.1 = true → opened

theorem afterGet_keeps (a : Attempt) (x : API.Answer .get) {opened : Prop} :
    (requests (afterGet a.config a.now x)).Keeps (confirmedGate a) Claims opened := by
  unfold afterGet
  split_ifs with herr hmissing hstatus
  · exact nofun
  · exact ⟨False.elim, fun written h => .inr ⟨afterWrite_true h, rfl⟩⟩
  · exact nofun
  · split
    · exact nofun
    · split_ifs with hheld
      · exact nofun
      · exact ⟨False.elim, fun written h => .inr ⟨afterWrite_true h, rfl⟩⟩

theorem attempt_keeps (a : Attempt) :
    (attempt a).Keeps (confirmedGate a) (fun _ _ => True) False := by
  have htry : (requests (tryAcquireOrRenew a.config a.now)).Keeps (confirmedGate a) Claims False :=
    ⟨False.elim, fun x => afterGet_keeps a x⟩
  exact htry.bind fun outcome opened hclaims => ⟨hclaims, fun _ => trivial⟩

theorem respond_failed {executed : Bool} {status : ℕ} {message : String}
    (hx : respond (.failed executed status message) (.api c) lease = some (x, lease')) :
    status ∉ [200, 201, 409] ∧ x = failure status message c := by
  simp only [respond] at hx
  split_ifs at hx with hstatus <;> exact ⟨hstatus, (Prod.mk.inj (some.inj hx)).1.symm⟩

theorem holder_of_confirmed {c : Requests.Call} {x : Requests.Answer c}
    (hconfirmed : Confirmed a c x) (hx : respond fate c lease = some (x, lease')) :
    ∃ value l, (c = .api (.post value) ∨ c = .api (.put value)) ∧ lease' = some l ∧
      l.holderIdentity = a.config.identity := by
  match c, x, hconfirmed, hx with
  | .api (.post value), x, ⟨hstatus, hvalue⟩, hx =>
    cases fate with
    | failed executed status message =>
      obtain ⟨hnot, rfl⟩ := respond_failed hx
      cases (hstatus : status = 201)
      exact absurd hnot (by decide)
    | answered =>
      cases lease with
      | none =>
        cases hx
        exact ⟨value, _, .inl rfl, rfl, hvalue⟩
      | some l =>
        cases hx
        exact absurd hstatus (by decide)
  | .api (.put value), x, ⟨hstatus, hvalue⟩, hx =>
    cases fate with
    | failed executed status message =>
      obtain ⟨hnot, rfl⟩ := respond_failed hx
      cases (hstatus : status = 200)
      exact absurd hnot (by decide)
    | answered =>
      cases lease with
      | none =>
        cases hx
        exact absurd hstatus (by decide)
      | some l =>
        replace hx : serve (.put value) (some l) = (x, lease') := some.inj hx
        by_cases hversion : value.resourceVersion = l.resourceVersion
        · have hserve : serve (.put value) (some l) = ((200, none),
              some { value with resourceVersion := l.resourceVersion + 1 }) := if_pos hversion
          rw [hserve] at hx
          cases hx
          exact ⟨value, _, .inr rfl, rfl, hvalue⟩
        · have hserve : serve (.put value) (some l) = ((409, none), some l) := if_neg hversion
          rw [hserve] at hx
          cases hx
          exact absurd hstatus (by decide)

/-! ### The Lease -/

theorem Takes.holder {old new : Lease} (h : Takes a (some old) (some new)) :
    (new.holderIdentity = old.holderIdentity → new.leaseTransitions = old.leaseTransitions) ∧
      (new.holderIdentity ≠ old.holderIdentity →
        new.leaseTransitions = old.leaseTransitions + 1 ∧
        new.holderIdentity = a.config.identity ∧
        (old.holderIdentity ≠ "" → ∃ expiry, old.expires = .ok expiry ∧ expiry ≤ a.now)) := by
  cases h with
  | nothing lease => exact ⟨fun _ => rfl, fun hne => absurd rfl hne⟩
  | claims old hclaim =>
    refine ⟨fun hsame => if_neg (not_not.mpr hsame.symm), fun hne => ?_⟩
    refine ⟨if_pos (Ne.symm hne), rfl, ?_⟩
    intro hheld
    -- an attempt may claim what nobody holds, what it holds itself, or what has expired
    obtain ⟨expiry, hexpires, hempty | hown | hexpired⟩ := hclaim
    · exact absurd hempty hheld
    · exact absurd hown.symm hne
    · exact ⟨expiry, hexpires, hexpired⟩

variable {lease : Option Lease} {moves : List (Move Attempt Fate Empty)}
  {s : Machine.State Requests Attempt (Option Lease)}

/-- **The Lease is taken over only when it has expired.** Along every interleaving of requests, the
Lease goes from a holder to another one only by a write of an attempt whose clock reading is not
before the expiry of the version that is replaced. The count of the transitions goes up by one at
each change of the holder, and only then. And an attempt that says it is the leader has written
its identity into the Lease. -/
theorem taken_over_only_when_expired (hrun : electors.run moves { world := lease } = some s) :
    (∀ m s' old new, electors.step m s = some s' → s.world = some old → s'.world = some new →
      (new.holderIdentity = old.holderIdentity → new.leaseTransitions = old.leaseTransitions) ∧
      (new.holderIdentity ≠ old.holderIdentity →
        new.leaseTransitions = old.leaseTransitions + 1 ∧
        ∃ i fate t, m = .turn i fate ∧ s.threads[i]? = some t ∧
          new.holderIdentity = t.job.config.identity ∧
          (old.holderIdentity ≠ "" → ∃ expiry, old.expires = .ok expiry ∧ expiry ≤ t.job.now))) ∧
    ∀ before entry after err, s.log = before ++ entry :: after →
      entry.call = .returned (true, err) →
      ∃ write ∈ before, write.thread = entry.thread ∧ write.pass = entry.pass ∧
        ∃ value new fate, (write.call = .api (.post value) ∨ write.call = .api (.put value)) ∧
          respond fate write.call write.world = some (write.answer, some new) ∧
          new.holderIdentity = entry.job.config.identity := by
  -- what every interleaving of the attempts keeps to
  have hkept := Machine.kept_of_run electors_relies trivial
    (fun _ _ _ _ _ _ => ⟨trivial, fun _ _ => trivial⟩) hrun
  constructor
  · intro m s' old new hstep hold hnew
    rcases hkept.step_cases trivial hstep with
      hsame | ⟨d, -⟩ | ⟨i, fate, t, own, c, x, hm, ht, hS⟩
    · rw [hold, hnew] at hsame
      cases hsame
      exact ⟨fun _ => rfl, fun hne => absurd rfl hne⟩
    · exact d.elim
    · have htakes : Takes t.job s.world s'.world := hS
      rw [hold, hnew] at htakes
      obtain ⟨hkeep, hchange⟩ := htakes.holder
      refine ⟨hkeep, fun hne => ?_⟩
      obtain ⟨hcount, hidentity, hexpired⟩ := hchange hne
      exact ⟨hcount, i, fate, t, hm, ht, hidentity, hexpired⟩
  · intro before entry after err hlog hcall
    -- a return of `true` is guarded, so a confirmed write comes before it
    have hguard : (confirmedGate entry.job).guards entry.call := by
      rw [hcall]
      rfl
    obtain ⟨write, hwrite, hthread, hpass, hopens⟩ :=
      Machine.opened_of_guarded (G := confirmedGate) attempt_keeps hrun hlog hguard
    have hmem : write ∈ s.log := by
      rw [hlog]
      exact List.mem_append_left _ hwrite
    obtain ⟨fate, lease', hanswer⟩ := Machine.answered_of_run hrun write hmem
    obtain ⟨value, new, hcall', rfl, hholder⟩ := holder_of_confirmed hopens hanswer
    exact ⟨write, hwrite, hthread, hpass, value, new, fate, hcall', hanswer, hholder⟩

def leaseOf (holder : String) : Lease where
  holderIdentity := holder
  leaseDurationSeconds := 15
  renewTime := .stamp 0
  leaseTransitions := 2

/-- An attempt of the elector `b`, twenty seconds later. -/
def lateAttempt : Attempt := ⟨{ identity := "b", leaseDuration := 15 * second }, 20 * second⟩

def readMoves : List (Move Attempt Fate Empty) := [.spawn lateAttempt, .turn 0 .answered]

theorem taken_over_from_expired : ∃ s s' old new,
    electors.run readMoves { world := some (leaseOf "a") } = some s ∧
      electors.step (.turn 0 .answered) s = some s' ∧ s.world = some old ∧ s'.world = some new ∧
      old.holderIdentity = "a" ∧ new.holderIdentity = "b" ∧
      new.leaseTransitions = old.leaseTransitions + 1 :=
  have hread : electors.run readMoves { world := some (leaseOf "a") } = some _ := rfl
  ⟨_, _, leaseOf "a", _, hread, rfl, rfl, rfl, rfl, rfl,
    (((taken_over_only_when_expired hread).1
      (.turn 0 .answered) _ _ _ rfl rfl rfl).2 (by decide)).1⟩

theorem transition_from_nobody : ∃ s s' old new,
    electors.run readMoves { world := some (leaseOf "") } = some s ∧
      electors.step (.turn 0 .answered) s = some s' ∧ s.world = some old ∧ s'.world = some new ∧
      old.holderIdentity = "" ∧ new.holderIdentity = "b" ∧
      old.leaseTransitions = 2 ∧ new.leaseTransitions = 3 :=
  ⟨_, _, leaseOf "", _, rfl, rfl, rfl, rfl, rfl, rfl, rfl, rfl⟩

end StarFabric.Leadership

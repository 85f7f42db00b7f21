import StarFabric.Onboard.Handlers

/-!
# Concurrent update requests

The handlers of `onboard/src/main.rs` as threads that interleave at single calls. The lock of the
state does not order them as a whole: `stage_update` releases it before it writes the image, and
`confirm_update` takes it only after the marker is switched. What is guaranteed is the case in which
a handler that switches the marker (`Job.Switches`) runs alone.
-/

namespace StarFabric.Onboard

open EffectProgram Prog

def Call.waits : Call → World → Bool
  | .lock, w => w.locked
  | .sharedActive, w => w.locked
  | _, _ => false

def Call.refuses : Call → Bool
  | .reply (.error _) => true
  | _ => false

def handlers (crypto : Crypto) : Machine iface Job Outside Empty World where
  program := Job.program crypto
  handle e c w := if Call.waits c w then none else some (perform e c w)
  drift d _ := d.elim

def Job.Switches : Job → Prop
  | stage _ => False
  | confirm _ => True
  | rollback => True

/-- Between handlers that switch the marker, `v` is active, no update is pending for it, and nobody
holds the lock. -/
structure Settled (v : String) (w : World) : Prop where
  synced : Synced v w
  clean : Clean w
  unlocked : w.locked = false

theorem StageCall.locked {v : String} {c : Call} (hc : StageCall v c) (e : Outside) (w : World) :
    (perform e c w).2.locked = w.locked := by
  cases c with
  | lock => exact hc.elim
  | unlock => exact hc.elim
  | _ => rfl

theorem handlers_discipline (crypto : Crypto) :
    Machine.Discipline (handlers crypto) calm Job.Switches Settled SeesActive StageCall Harmless where
  handled := by
    intro e c w r hr
    have hr' : (if Call.waits c w then none else some (perform e c w)) = some r := hr
    split_ifs at hr'
    exact (Option.some.inj hr').symm
  safe := fun v c w hw hc => (hw.synced.careful hc).1
  keeps := by
    intro v e c w hw hc
    obtain ⟨hanswer, hsynced⟩ := hw.synced.keeps hc e
    exact ⟨hanswer, hsynced, Clean.keeps hw.synced hw.clean hc e,
      (StageCall.locked hc e w).trans hw.unlocked⟩
  shared := by
    intro job v hjob
    cases job with
    | stage path => exact under_stageUpdate crypto path
    | confirm slot => exact absurd trivial hjob
    | rollback => exact absurd trivial hjob
  alone := by
    intro job v w hjob hw
    cases job with
    | stage path => exact hjob.elim
    | confirm slot =>
      refine Secure.weaken ((secure_confirmUpdate crypto slot hw.synced).mono ?_) fun _ _ h => h.1
      rintro a w' ⟨v', hsynced, hclean, hlocked⟩
      exact ⟨v', hsynced, hclean hw.clean, hlocked hw.unlocked⟩
    | rollback =>
      refine Secure.weaken ((secure_rollbackUpdate hw.synced hw.clean).mono ?_) fun _ _ h => h.1
      rintro a w' ⟨v', hsynced, hclean, hlocked⟩
      exact ⟨v', hsynced, hclean, hlocked⟩

/-- **Update requests spare the active image.** The handlers interleave in any way, except that one
that switches the marker does not overlap another one. Then no call writes or deletes the image of
the slot that the marker names at that moment, and once all handlers are through, the state in
memory agrees with the marker. -/
theorem requests_spare_active_image {crypto : Crypto} {v : String} {w : World} (hw : Settled v w)
    {moves : List (Move Job Outside Empty)} {s : Machine.State iface Job World}
    (hallowed : ∀ done m rest mid, moves = done ++ m :: rest →
      (handlers crypto).run done { world := w } = some mid →
      Machine.Allowed Job.Switches m mid)
    (hrun : (handlers crypto).run moves { world := w } = some s) :
    (∀ entry ∈ s.log, Harmless entry.call entry.world) ∧
      ((∀ t ∈ s.threads, t.Ended) → s.world.marker = some s.world.active) := by
  have horderly := Machine.orderly_of_run (handlers_discipline crypto) hw hallowed hrun
  refine ⟨horderly.safe, fun hended => ?_⟩
  obtain ⟨v', hsettled⟩ := horderly.phase.settled hended
  rw [hsettled.synced.active]
  exact hsettled.synced.marker

/-! ### Three handlers -/

instance decidableHarmlessEntry (entry : Entry iface Job World) :
    Decidable (Harmless entry.call entry.world) := decidableHarmless entry.call entry.world

def turns (i n : ℕ) : List (Move Job Outside Empty) := List.replicate n (.turn i toyOutside)

instance : DecidablePred Job.Switches
  | .stage _ => instDecidableFalse
  | .confirm _ | .rollback => instDecidableTrue

instance decidableAllowed : ∀ (m : Move Job Outside Empty) (s : Machine.State iface Job World),
    Decidable (Machine.Allowed Job.Switches m s)
  | .spawn _, s => inferInstanceAs (Decidable (∀ t ∈ s.threads, _ ∨ _))
  | .turn _ _, _ => instDecidableTrue
  | .drift d, _ => d.elim

/-- Two overlapping `stage_update`, and `confirm_update` after them. -/
def stagesThenConfirm : List (Move Job Outside Empty) :=
  [.spawn (.stage "m"), .spawn (.stage "m")] ++ turns 0 4 ++ turns 1 7 ++ turns 0 3 ++
    .spawn (.confirm "b") :: turns 2 13

theorem requests_spare_active_image_confirmed :
    ∃ s, (handlers toyCrypto).run stagesThenConfirm { world := toyWorld } = some s ∧
      (∀ entry ∈ s.log, Harmless entry.call entry.world) ∧
      s.world.marker = some s.world.active := by
  have hsettled : Settled "a" toyWorld :=
    ⟨⟨rfl, rfl⟩, fun p hp => absurd (show none = some p from hp) nofun, rfl⟩
  have hsome : ((handlers toyCrypto).run stagesThenConfirm { world := toyWorld }).isSome := by
    decide +kernel
  obtain ⟨s, hs⟩ := Option.isSome_iff_exists.mp hsome
  have hended : ∀ s ∈ (handlers toyCrypto).run stagesThenConfirm { world := toyWorld },
      ∀ t ∈ s.threads, t.Ended := by
    decide +kernel
  have hallowed : (handlers toyCrypto).along (fun m s => decide (Machine.Allowed Job.Switches m s))
      stagesThenConfirm { world := toyWorld } = true := by
    decide +kernel
  obtain ⟨hsafe, hagree⟩ := requests_spare_active_image hsettled (fun done m rest mid hmoves hmid =>
    of_decide_eq_true (Machine.of_along hallowed done m rest mid hmoves hmid)) hs
  exact ⟨s, hs, hsafe, hagree (hended s hs)⟩

/-- **A marker switched under a handler.** In the first run `stage_update` has seen that `a` is
active, `confirm_update` switches the marker to `b`, and the image of `b` is overwritten. In the
second run `rollback_update` takes back what `confirm_update` did before it has the lock. All
handlers succeed, the marker names `a`, and the state in memory names `b`. -/
theorem requests_overwrite_active_image :
    (∃ s ∈ (handlers toyCrypto).run ([.spawn (.stage "m")] ++ turns 0 7 ++
        .spawn (.stage "m") :: turns 1 2 ++ .spawn (.confirm "b") :: turns 2 5 ++ turns 1 2)
          { world := toyWorld }, ∃ entry ∈ s.log, ¬ Harmless entry.call entry.world) ∧
      ∃ s ∈ (handlers toyCrypto).run ([.spawn (.stage "m")] ++ turns 0 7 ++
        .spawn (.confirm "b") :: turns 1 7 ++ .spawn .rollback :: turns 2 11 ++ turns 1 6)
          { world := toyWorld }, (∀ t ∈ s.threads, t.Ended) ∧
            (∀ entry ∈ s.log, Call.refuses entry.call = false) ∧
            s.world.marker = some "a" ∧ s.world.active = "b" := by
  decide +kernel

end StarFabric.Onboard

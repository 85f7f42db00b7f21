import StarFabric.Onboard.World

/-!
# The active slot holds an image

`Inv` is about the state directory alone: the slot that the marker names holds an image that is the
initial one or was verified (`Good`), and the image in the previous slot is good, *if there is one*.
`stage` and `confirm` keep the invariant at every file operation, also when operations fail.
`rollback` keeps it under `RollbackSafe`.
-/

namespace StarFabric.Onboard

open EffectProgram Function List Option Prog

/-! ### Rules for programs over files -/

section

variable {env : ℕ → Env} {J : Disk → Prop} {α β : Type} {w : World}

/-- `J` holds of the directory from here to the end of the program, at every operation. -/
def Stays (env : ℕ → Env) (J : Disk → Prop) (p : Prog iface α) (w : World) : Prop :=
  Meets (handle env) (fun w => J w.disk) (fun _ w => J w.disk) p w

theorem stays_pure {a : α} (h : J w.disk) : Stays env J (pure a) w := ⟨h, h⟩

variable {p : Prog iface (Except IoError α)} {f : α → Prog iface (Except IoError β)}

theorem stays_onOk
    (hp : Meets (handle env) (fun w => J w.disk) (fun r w => ∀ a, r = .ok a →
      Stays env J (f a) w) p w) :
    Stays env J (onOk p f) w := by
  refine hp.bind fun r w' hJ hr => ?_
  cases r with
  | ok a => exact hr a rfl
  | error e => exact stays_pure hJ

def Quiet (env : ℕ → Env) (p : Prog iface α) : Prop :=
  ∀ w, Meets (handle env) (fun w' => w'.disk = w.disk) (fun _ _ => True) p w

theorem quiet_ask {c : Call} (hc : c.Reads) : Quiet env (ask (I := iface) c) :=
  fun _ => ⟨rfl, handle_reads hc, trivial⟩

theorem stays_quiet (hp : Quiet env p) (h : J w.disk)
    (hf : ∀ a w', w'.disk = w.disk → Stays env J (f a) w') :
    Stays env J (onOk p f) w := by
  have hkept : ∀ w' : World, w'.disk = w.disk → J w'.disk := by
    intro w' hw'
    rw [hw']
    exact h
  exact stays_onOk (((hp w).mono fun r w' hw' _ a _ => hf a w' hw').weaken hkept)

variable {file : File}

theorem stays_read {f : file.Content → Prog iface (Except IoError β)} (h : J w.disk)
    (hf : ∀ x w', w.disk file = some x → w'.disk = w.disk → Stays env J (f x) w') :
    Stays env J (onOk (Ask.read file) f) w := by
  have hdisk : (handle env (.read file) w).2.disk = w.disk := handle_reads trivial
  have hkept : J (handle env (.read file) w).2.disk := by
    rw [hdisk]
    exact h
  refine stays_onOk ⟨h, hkept, fun x hx => ?_⟩
  exact hf x _ (handle_read_ok hx) hdisk

variable {content : file.Content}

theorem kept_write (h : J w.disk) (hwritten : J (update w.disk file (some content))) :
    J (handle env (.write file content) w).2.disk := by
  rcases handle_disk env (.write file content) w with hsame | hnew
  · rw [hsame]
    exact h
  · rw [hnew]
    exact hwritten

theorem kept_remove (h : J w.disk) (hremoved : J (update w.disk file none)) :
    J (handle env (.remove file) w).2.disk := by
  rcases handle_disk env (.remove file) w with hsame | hnew
  · rw [hsame]
    exact h
  · rw [hnew]
    exact hremoved

theorem stays_write {f : Unit → Prog iface (Except IoError β)} (h : J w.disk)
    (hwritten : J (update w.disk file (some content)))
    (hf : ∀ w', w'.disk = update w.disk file (some content) → Stays env J (f ()) w') :
    Stays env J (onOk (Ask.write file content) f) w :=
  stays_onOk ⟨h, kept_write h hwritten, fun _ hok => hf _ (handle_write_ok hok)⟩

theorem stays_write_last (h : J w.disk)
    (hwritten : J (update w.disk file (some content))) :
    Stays env J (Ask.write file content) w :=
  ⟨h, kept_write h hwritten, kept_write h hwritten⟩

theorem stays_remove {f : Unit → Prog iface (Except IoError β)} (h : J w.disk)
    (hremoved : J (update w.disk file none))
    (hf : ∀ w', w'.disk = update w.disk file none → Stays env J (f ()) w') :
    Stays env J (onOk (Ask.remove file) f) w := by
  refine stays_onOk ⟨h, kept_remove h hremoved, fun _ hok => hf _ ?_⟩
  rcases handle_answer env (.remove file) w with ⟨-, hnew⟩ | ⟨text, hfailed⟩
  · exact hnew
  · rw [hok] at hfailed
    cases hfailed

theorem meets_activeSlot (h : J w.disk) :
    Meets (handle env) (fun w => J w.disk)
      (fun r w' => w'.disk = w.disk ∧ ∀ slot, r = .ok slot → w.marker = some slot) activeSlot w := by
  have hdisk : (handle env (.read .activeSlot) w).2.disk = w.disk := handle_reads trivial
  have hkept : J (handle env (.read .activeSlot) w).2.disk := by
    rw [hdisk]
    exact h
  have hread : Meets (handle env) (fun w => J w.disk) (fun r w' => w'.disk = w.disk ∧
      r = (handle env (.read .activeSlot) w).1) (Ask.read .activeSlot) w :=
    ⟨h, hkept, hdisk, rfl⟩
  refine hread.bind ?_
  rintro r w' hJ ⟨hw', rfl⟩
  unfold World.marker
  cases hread : (handle env (.read .activeSlot) w).1 with
  | ok content =>
    rw [handle_read_ok hread]
    dsimp only
    split_ifs with hslot
    · refine meets_pure hJ ⟨hw', fun slot hs => ?_⟩
      unfold slotOf
      dsimp only
      rw [if_pos hslot, Except.ok.inj hs]
    · exact meets_pure hJ ⟨hw', nofun⟩
  | error e =>
    cases e with
    | notFound =>
      rw [handle_read_notFound hread]
      exact meets_pure hJ ⟨hw', fun slot hs => congrArg some (Except.ok.inj hs)⟩
    | other text => exact meets_pure hJ ⟨hw', nofun⟩

end

/-! ### The invariant -/

/-- The image is the initial one, or its digest is in a manifest with a verified signature. -/
def Good (crypto : Crypto) (initial image : Bytes) : Prop :=
  image = initial ∨ ∃ manifest : UpdateManifest,
    crypto.verify manifest.signedBytes manifest.signature = .ok () ∧
      eqIgnoreAsciiCase (crypto.sha256 image) manifest.sha256 = true

def Boots (crypto : Crypto) (initial : Bytes) (d : Disk) : Prop :=
  ∃ slot image, slotOf (d .activeSlot) = some slot ∧ d (.runtime slot) = some image ∧
    Good crypto initial image

structure Inv (crypto : Crypto) (initial : Bytes) (d : Disk) : Prop where
  boots : Boots crypto initial d
  pending : ∀ p, d .pending = some p →
    crypto.verify p.manifest.signedBytes p.manifest.signature = .ok ()
  previous : ∀ slot image, d .previousActiveSlot = some slot →
    d (.runtime (trim slot)) = some image → Good crypto initial image

namespace Inv

variable {crypto : Crypto} {initial : Bytes} {d : Disk}

theorem write_runtime (h : Inv crypto initial d) {target : String}
    (hne : slotOf (d .activeSlot) ≠ some target) (content : Option Bytes)
    (hgood : ∀ image, content = some image → Good crypto initial image) :
    Inv crypto initial (update d (.runtime target) content) := by
  obtain ⟨slot, image, hslot, himage, hboots⟩ := h.boots
  have hother : slot ≠ target := fun heq => hne (heq ▸ hslot)
  refine ⟨⟨slot, image, ?_, ?_, hboots⟩, fun p hp => h.pending p ?_, fun prev x hprev hx => ?_⟩
  · rw [update_of_ne (by simp)]
    exact hslot
  · rw [update_of_ne (by simpa using hother)]
    exact himage
  · rwa [update_of_ne (by simp)] at hp
  · rw [update_of_ne (by simp)] at hprev
    by_cases htrim : trim prev = target
    · rw [htrim, update_self] at hx
      exact hgood x hx
    · rw [update_of_ne (by simpa using htrim)] at hx
      exact h.previous prev x hprev hx

theorem write_pending (h : Inv crypto initial d) (content : Option PendingUpdate)
    (hverified : ∀ p, content = some p →
      crypto.verify p.manifest.signedBytes p.manifest.signature = .ok ()) :
    Inv crypto initial (update d .pending content) := by
  obtain ⟨slot, image, hslot, himage, hboots⟩ := h.boots
  refine ⟨⟨slot, image, ?_, ?_, hboots⟩, fun p hp => hverified p ?_, fun prev x hprev hx => ?_⟩
  · rw [update_of_ne (by simp)]
    exact hslot
  · rw [update_of_ne (by simp)]
    exact himage
  · rwa [update_self] at hp
  · rw [update_of_ne (by simp)] at hprev hx
    exact h.previous prev x hprev hx

theorem write_previous (h : Inv crypto initial d) (content : Option String)
    (hactive : ∀ slot, content = some slot → slotOf (d .activeSlot) = some slot) :
    Inv crypto initial (update d .previousActiveSlot content) := by
  obtain ⟨slot, image, hslot, himage, hboots⟩ := h.boots
  refine ⟨⟨slot, image, ?_, ?_, hboots⟩, fun p hp => h.pending p ?_, fun prev x hprev hx => ?_⟩
  · rw [update_of_ne (by simp)]
    exact hslot
  · rw [update_of_ne (by simp)]
    exact himage
  · rwa [update_of_ne (by simp)] at hp
  · rw [update_self] at hprev
    have hprevSlot := hactive prev hprev
    cases some.inj (hslot.symm.trans hprevSlot)
    rw [update_of_ne (by simp), trim_of_isSlot (isSlot_of_slotOf hslot), himage] at hx
    exact some.inj hx ▸ hboots

theorem write_active (h : Inv crypto initial d) {slot : String} (hslot : isSlot slot = true)
    {image : Bytes} (himage : d (.runtime slot) = some image)
    (hgood : Good crypto initial image) :
    Inv crypto initial (update d .activeSlot (some slot)) := by
  refine ⟨⟨slot, image, ?_, ?_, hgood⟩, fun p hp => h.pending p ?_, fun prev x hprev hx => ?_⟩
  · rw [update_self]
    exact slotOf_of_isSlot hslot
  · rw [update_of_ne (by simp)]
    exact himage
  · rwa [update_of_ne (by simp)] at hp
  · rw [update_of_ne (by simp)] at hprev hx
    exact h.previous prev x hprev hx

end Inv

/-! ### The three calls -/

section

variable {env : ℕ → Env} {crypto : Crypto} {initial : Bytes} {w : World}

theorem stays_stage (env : ℕ → Env) {manifest : UpdateManifest} {active : String}
    (h : Inv crypto initial w.disk)
    (hactive : w.marker = some active) :
    Stays env (Inv crypto initial) (stage crypto manifest active) w := by
  unfold stage
  split_ifs with hversion htarget
  · exact stays_pure h
  · exact stays_pure h
  -- the target is the other slot
  have hne : slotOf (w.disk .activeSlot) ≠ some manifest.targetSlot := by
    intro heq
    exact htarget (.inr (some.inj (heq.symm.trans hactive)))
  cases hverify : crypto.verify manifest.signedBytes manifest.signature with
  | error e => exact stays_pure h
  | ok _ =>
    refine stays_quiet (quiet_ask (c := .readArtifact manifest.artifact) trivial) h
      fun artifact w₁ hw₁ => ?_
    rw [← hw₁] at h hne
    split_ifs with hdigest
    · exact stays_pure h
    have hgood : ∀ image, some artifact = some image → Good crypto initial image := by
      intro image himage
      rw [← some.inj himage]
      exact .inr ⟨manifest, hverify, by simpa using hdigest⟩
    have hwritten := h.write_runtime hne (some artifact) hgood
    refine stays_write h hwritten fun w₂ hw₂ => ?_
    rw [← hw₂] at hwritten
    refine stays_quiet (quiet_ask (c := .setPermissions (.runtime manifest.targetSlot)) trivial)
      hwritten fun _ w₃ hw₃ => ?_
    rw [← hw₃] at hwritten
    refine stays_write_last hwritten (hwritten.write_pending _ fun p hp => ?_)
    rw [← some.inj hp]
    exact hverify

theorem stays_confirm (env : ℕ → Env) {targetSlot : String} (h : Inv crypto initial w.disk) :
    Stays env (Inv crypto initial) (confirm crypto targetSlot) w := by
  unfold confirm
  split_ifs with hslot
  · exact stays_pure h
  replace hslot : isSlot targetSlot = true := by simpa using hslot
  refine stays_read h fun pending w₁ hpending hw₁ => ?_
  have hverified := h.pending pending hpending
  rw [← hw₁] at h
  split_ifs with htarget
  · exact stays_pure h
  refine stays_onOk ((meets_activeSlot h).mono ?_)
  rintro r w₂ - ⟨hw₂, hmarker⟩ active rfl
  rw [← hw₂] at h
  have hactive : slotOf (w₂.disk .activeSlot) = some active := by
    rw [hw₂]
    exact hmarker active rfl
  split_ifs with hprevious
  · exact stays_pure h
  refine stays_read h fun staged w₃ hstaged hw₃ => ?_
  rw [← hw₃] at h hstaged hactive
  split_ifs with hdigest
  · exact stays_pure h
  -- the digest was compared again, with the manifest that was verified when it was staged
  have hgood : Good crypto initial staged :=
    .inr ⟨pending.manifest, hverified, by simpa using hdigest⟩
  have hrecorded := h.write_previous (some active) fun slot hs =>
    some.inj hs ▸ hactive
  refine stays_write h hrecorded fun w₄ hw₄ => ?_
  have hstaged₄ : w₄.disk (.runtime targetSlot) = some staged := by
    rw [hw₄, update_of_ne (by simp)]
    exact hstaged
  rw [← hw₄] at hrecorded
  have hswitched := hrecorded.write_active hslot hstaged₄ hgood
  refine stays_write hrecorded hswitched fun w₅ hw₅ => ?_
  rw [← hw₅] at hswitched
  have hremoved := hswitched.write_pending none nofun
  refine stays_remove hswitched hremoved fun w₆ hw₆ => ?_
  rw [← hw₆] at hremoved
  refine stays_quiet (quiet_ask (c := .syncRoot) trivial) hremoved fun _ w₇ hw₇ => ?_
  rw [← hw₇] at hremoved
  exact stays_pure hremoved

/-- What `rollback` does not look at: the pending update is not for the active slot, and the slot
that the previous marker names holds an image. -/
structure RollbackSafe (d : Disk) : Prop where
  pending : ∀ p, d .pending = some p → slotOf (d .activeSlot) ≠ some p.manifest.targetSlot
  previous : ∀ slot, d .previousActiveSlot = some slot → isSlot (trim slot) = true →
    (d (.runtime (trim slot))).isSome

theorem stays_dropPending (h : Inv crypto initial w.disk) (hsafe : RollbackSafe w.disk) :
    Stays env (Inv crypto initial) dropPending w := by
  refine stays_read h fun pending w₁ hpending hw₁ => ?_
  have hne := hsafe.pending pending hpending
  rw [← hw₁] at h hne
  have hdropped := h.write_pending none nofun
  refine stays_remove h hdropped fun w₂ hw₂ => ?_
  have hne₂ : slotOf (w₂.disk .activeSlot) ≠ some pending.manifest.targetSlot := by
    rw [hw₂, update_of_ne (by simp)]
    exact hne
  rw [← hw₂] at hdropped
  have hdeleted := hdropped.write_runtime hne₂ none nofun
  have hremove : Meets (handle env) (fun w => Inv crypto initial w.disk) (fun _ _ => True)
      (Ask.remove (.runtime pending.manifest.targetSlot)) w₂ :=
    ⟨hdropped, kept_remove hdropped hdeleted, trivial⟩
  -- the image may be missing already
  have hrest : ∀ w : World, Inv crypto initial w.disk →
      Stays env (Inv crypto initial) (onOk Ask.syncRoot fun _ => activeSlot) w := by
    intro w hw
    refine stays_quiet (quiet_ask (c := .syncRoot) trivial) hw fun _ w' hw' => ?_
    rw [← hw'] at hw
    exact (meets_activeSlot hw).mono fun _ _ hJ _ => hJ
  refine hremove.bind fun result w₃ h₃ _ => ?_
  cases result with
  | ok _ => exact hrest w₃ h₃
  | error e =>
    cases e with
    | notFound => exact hrest w₃ h₃
    | other text => exact stays_pure h₃

theorem stays_goBack (h : Inv crypto initial w.disk) (hsafe : RollbackSafe w.disk) :
    Stays env (Inv crypto initial) goBack w := by
  refine stays_read h fun previous w₁ hprevious hw₁ => ?_
  split_ifs with hslot
  · rw [← hw₁] at h
    exact stays_pure h
  replace hslot : isSlot (trim previous) = true := by simpa using hslot
  obtain ⟨image, himage⟩ := isSome_iff_exists.mp (hsafe.previous previous hprevious hslot)
  have hgood := h.previous previous image hprevious himage
  rw [← hw₁] at h himage
  have hswitched := h.write_active hslot himage hgood
  refine stays_write h hswitched fun w₂ hw₂ => ?_
  rw [← hw₂] at hswitched
  have hremoved := hswitched.write_previous none nofun
  refine stays_remove hswitched hremoved fun w₃ hw₃ => ?_
  rw [← hw₃] at hremoved
  refine stays_quiet (quiet_ask (c := .syncRoot) trivial) hremoved fun _ w₄ hw₄ => ?_
  rw [← hw₄] at hremoved
  exact stays_pure hremoved

theorem stays_rollback (env : ℕ → Env) (h : Inv crypto initial w.disk)
    (hsafe : RollbackSafe w.disk) :
    Stays env (Inv crypto initial) rollback w := by
  have hdisk : (handle env (.pathExists .pending) w).2.disk = w.disk := handle_reads trivial
  have hkept : Inv crypto initial (handle env (.pathExists .pending) w).2.disk := by
    rw [hdisk]
    exact h
  have hexists : Meets (handle env) (fun w => Inv crypto initial w.disk)
      (fun _ w' => w'.disk = w.disk) (Ask.pathExists .pending) w := ⟨h, hkept, hdisk⟩
  refine hexists.bind fun present w₁ h₁ hw₁ => ?_
  rw [← hw₁] at hsafe
  cases present with
  | true => exact stays_dropPending h₁ hsafe
  | false => exact stays_goBack h₁ hsafe

end

/-! ### Sequences of calls -/

inductive SlotCall where
  | stage (manifest : UpdateManifest)
  | confirm (slot : String)
  | rollback

/-- The world after a call. `stage` is called with the slot that is active. -/
def SlotCall.run (env : ℕ → Env) (crypto : Crypto) (w : World) : SlotCall → World
  | stage manifest =>
    match w.marker with
    | some active => (Prog.run (handle env) (Onboard.stage crypto manifest active) w).2
    | none => w
  | confirm slot => (Prog.run (handle env) (Onboard.confirm crypto slot) w).2
  | rollback => (Prog.run (handle env) Onboard.rollback w).2

def runCalls (env : ℕ → Env) (crypto : Crypto) (w : World) (calls : List SlotCall) : World :=
  calls.foldl (fun w call => call.run env crypto w) w

section Runs

variable {env : ℕ → Env} {crypto : Crypto} {initial : Bytes} {w : World}

theorem Inv.run (h : Inv crypto initial w.disk) (call : SlotCall)
    (hsafe : call = .rollback → RollbackSafe w.disk) :
    Inv crypto initial (call.run env crypto w).disk := by
  cases call with
  | stage manifest =>
    unfold SlotCall.run
    cases hmarker : w.marker with
    | none => exact h
    | some active => exact (stays_stage env h hmarker).post
  | confirm slot => exact (stays_confirm env h).post
  | rollback => exact (stays_rollback env h (hsafe rfl)).post

/-- **The active slot boots.** The directory starts with an image in the active slot and without a
pending update, and the slot of a previous marker, if there is one, holds no other image than the
initial one. Then after every sequence of calls, whatever operations fail, the slot that the
marker names holds the initial image or a verified one, provided that every `rollback` finds a
pending update for the inactive slot and an image in the previous slot. -/
theorem active_slot_boots {slot : String} (hslot : w.marker = some slot)
    (himage : w.disk (.runtime slot) = some initial) (hpending : w.disk .pending = none)
    (hprevious : ∀ prev image, w.disk .previousActiveSlot = some prev →
      w.disk (.runtime (trim prev)) = some image → image = initial)
    (calls : List SlotCall)
    (hsafe : ∀ done rest, calls = done ++ .rollback :: rest →
      RollbackSafe (runCalls env crypto w done).disk) :
    ∃ active image, (runCalls env crypto w calls).marker = some active ∧
      (runCalls env crypto w calls).disk (.runtime active) = some image ∧
      Good crypto initial image := by
  have hstart : Inv crypto initial w.disk := by
    refine ⟨⟨slot, initial, hslot, himage, .inl rfl⟩, fun p hp => ?_, fun prev image hp hi =>
      .inl (hprevious prev image hp hi)⟩
    rw [hpending] at hp
    cases hp
  -- induction on the calls made so far
  have hrun : ∀ done rest, calls = done ++ rest →
      Inv crypto initial (runCalls env crypto w done).disk := by
    intro done
    induction done using reverseRecOn with
    | nil => exact fun _ _ => hstart
    | append_singleton done call ih =>
      intro rest hcalls
      rw [append_assoc, singleton_append] at hcalls
      unfold runCalls
      rw [foldl_append, foldl_cons, foldl_nil]
      refine (ih _ hcalls).run call fun hrollback => ?_
      subst hrollback
      exact hsafe done rest hcalls
  exact (hrun calls [] (append_nil calls).symm).boots

end Runs

/-! ### One update, and a second one that is rolled back -/

def toyEnv : ℕ → Env := fun _ => { manifest := .ok (toyManifest "b"), artifact := .ok [2] }

theorem active_slot_boots_update :
    ∃ active image, (runCalls toyEnv toyCrypto toyWorld
        [.stage (toyManifest "b"), .confirm "b", .rollback]).marker = some active ∧
      (runCalls toyEnv toyCrypto toyWorld
        [.stage (toyManifest "b"), .confirm "b", .rollback]).disk (.runtime active) = some image ∧
      Good toyCrypto [1] image := by
  have hprevious : ∀ prev image, toyWorld.disk .previousActiveSlot = some prev →
      toyWorld.disk (.runtime (trim prev)) = some image → image = [1] :=
    fun prev _ hp => absurd (show none = some prev from hp) nofun
  have hmarker : toyWorld.marker = some "a" := rfl
  refine active_slot_boots hmarker rfl rfl hprevious _ fun done rest hcalls => ?_
  -- the only rollback is the third call
  have hdone : done = [.stage (toyManifest "b"), .confirm "b"] := by
    rcases done with _ | ⟨first, _ | ⟨second, _ | ⟨third, tail⟩⟩⟩
    · simp at hcalls
    · simp at hcalls
    · simp only [cons_append, nil_append, cons.injEq] at hcalls
      rw [← hcalls.1, ← hcalls.2.1]
    · simp at hcalls
  subst hdone
  obtain ⟨w, hw, hpending, hprevious, himage⟩ : ∃ w, runCalls toyEnv toyCrypto toyWorld
      [.stage (toyManifest "b"), .confirm "b"] = w ∧ w.disk .pending = none ∧
      w.disk .previousActiveSlot = some "a" ∧ (w.disk (.runtime "a")).isSome :=
    ⟨_, rfl, by decide +kernel⟩
  rw [hw]
  refine ⟨fun p hp => ?_, fun slot hslot _ => ?_⟩
  · rw [hpending] at hp
    cases hp
  · rw [hprevious] at hslot
    cases some.inj hslot
    rw [trim_of_isSlot rfl]
    exact himage

/-- An update of `b` is confirmed. An update of `a` is staged and rolled back, which deletes the
image of `a`. Rolling back once more makes `a` the active slot, and it holds no image. -/
theorem rollback_activates_empty_slot :
    (runCalls toyEnv toyCrypto toyWorld [.stage (toyManifest "b"), .confirm "b",
        .stage (toyManifest "a"), .rollback, .rollback]).marker = some "a" ∧
      (runCalls toyEnv toyCrypto toyWorld [.stage (toyManifest "b"), .confirm "b",
        .stage (toyManifest "a"), .rollback, .rollback]).disk (.runtime "a") = none := by
  decide +kernel

end StarFabric.Onboard

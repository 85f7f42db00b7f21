import StarFabric.Onboard.World
import StarFabric.Lib.Exclusive

/-!
# The update handlers, one at a time

What a handler does when its file operations succeed and nobody else moves. Between two requests the
state in memory agrees with the marker (`Synced`). Every operation is `Careful`: it leaves the image
alone that the marker names. `rollback` is safe when the pending update is not for the active slot
(`Clean`).
-/

namespace StarFabric.Onboard

open EffectProgram Prog Function Option

def calm : Outside → Handler iface World := fun e c w => perform e c w

/-- The call leaves the active image alone, and the marker names a slot. -/
def Careful (c : Call) (w : World) : Prop := Harmless c w ∧ w.marker ≠ none

/-- The marker names `v`, and so does the state in memory. -/
structure Synced (v : String) (w : World) : Prop where
  marker : w.marker = some v
  active : w.active = v

def Clean (w : World) : Prop :=
  ∀ p, w.disk .pending = some p → w.marker ≠ some p.manifest.targetSlot

section Rules

variable {α β : Type} {w : World} {Q : Except IoError β → World → Prop}

theorem careful_of_not_touches {c : Call} (hc : ∀ slot, ¬ c.touches slot) (hm : w.marker ≠ none) :
    Careful c w :=
  ⟨fun slot h => absurd h (hc slot), hm⟩

variable {file : File}

theorem secure_read {f : file.Content → Prog iface (Except IoError β)} (hm : w.marker ≠ none)
    (hnone : w.disk file = none → Q (.error .notFound) w)
    (hsome : ∀ x, w.disk file = some x → Secure calm Careful Q (f x) w) :
    Secure calm Careful Q (onOk (Ask.read file) f) w := by
  refine ⟨careful_of_not_touches (fun _ h => h) hm, fun e => ?_⟩
  show Secure calm Careful Q (done (found (w.disk file)) >>= _) w
  cases hdisk : w.disk file with
  | none => exact hnone hdisk
  | some x => exact hsome x hdisk

variable {f : Unit → Prog iface (Except IoError β)}

theorem secure_write {content : file.Content} (hc : Careful (.write file content) w)
    (hf : Secure calm Careful Q (f ()) { w with disk := update w.disk file (some content) })
    : Secure calm Careful Q (onOk (Ask.write file content) f) w :=
  ⟨hc, fun _ => hf⟩

theorem secure_remove (hc : Careful (.remove file) w) (hpresent : (w.disk file).isSome)
    (hf : Secure calm Careful Q (f ()) { w with disk := update w.disk file none }) :
    Secure calm Careful Q (onOk (Ask.remove file) f) w := by
  refine ⟨hc, fun e => ?_⟩
  show Secure calm Careful Q (done ((found (w.disk file)).map fun _ => ()) >>= _) _
  obtain ⟨x, hx⟩ := isSome_iff_exists.mp hpresent
  rw [hx]
  exact hf

theorem secure_sync (hm : w.marker ≠ none) (hf : Secure calm Careful Q (f ()) w) :
    Secure calm Careful Q (onOk Ask.syncRoot f) w :=
  ⟨careful_of_not_touches (fun _ h => h) hm, fun _ => hf⟩

theorem secure_activeSlot {v : String} {Q : Except IoError String → World → Prop}
    (hv : w.marker = some v) (hQ : Q (.ok v) w) : Secure calm Careful Q activeSlot w := by
  refine ⟨careful_of_not_touches (fun _ h => h) (by rw [hv]; nofun), fun e => ?_⟩
  show Secure calm Careful Q (done (found (w.disk .activeSlot)) >>= _) w
  unfold World.marker slotOf at hv
  cases hdisk : w.disk .activeSlot with
  | none =>
    rw [hdisk] at hv
    cases Option.some.inj hv
    exact hQ
  | some content =>
    rw [hdisk] at hv
    dsimp only at hv
    split_ifs at hv with hslot
    cases Option.some.inj hv
    show Secure calm Careful Q (if isSlot (trim content) = true then _ else _) w
    rw [if_pos hslot]
    exact hQ

theorem secure_onOk {p : Prog iface (Except IoError α)}
    {f : α → Prog iface (Except IoError β)} {P : Except IoError α → World → Prop}
    (hp : Secure calm Careful P p w) (hok : ∀ a w', P (.ok a) w' → Secure calm Careful Q (f a) w')
    (herror : ∀ e w', P (.error e) w' → Q (.error e) w') :
    Secure calm Careful Q (onOk p f) w := by
  refine hp.bind fun r w' hr => ?_
  cases r with
  | ok a => exact hok a w' hr
  | error e => exact herror e w' hr

end Rules

/-! ### `stage_update` -/

/-- The answers that agree with `v` as the active slot. -/
def SeesActive (v : String) : (c : Call) → c.Answer → Prop
  | .sharedActive, slot => slot = v
  | _, _ => True

/-- The calls of `stage_update` while `v` is active. -/
def StageCall (v : String) : Call → Prop
  | .readManifest _ | .readArtifact _ | .sharedActive | .setPermissions _ | .reply _ => True
  | .write (.runtime slot) _ => slot ≠ v
  | .write .pending pending => pending.manifest.targetSlot ≠ v
  | _ => False

section Stage

variable {v : String} {w : World}

theorem under_onOk {α β : Type} {A : (c : Call) → c.Answer → Prop} {C : Call → Prop}
    {p : Prog iface (Except IoError α)} {f : α → Prog iface (Except IoError β)}
    (hp : Under (I := iface) A C p) (hf : ∀ a, Under (I := iface) A C (f a)) :
    Under (I := iface) A C (onOk p f) := by
  refine hp.bind fun r => ?_
  cases r with
  | ok a => exact hf a
  | error e => trivial

theorem under_finish (result : Except IoError String) :
    Under (I := iface) (SeesActive v) (StageCall v) (finish result) :=
  ⟨trivial, fun _ _ => trivial⟩

theorem under_stage (crypto : Crypto) (m : UpdateManifest) :
    Under (I := iface) (SeesActive v) (StageCall v) (stage crypto m v) := by
  unfold stage
  split_ifs with hversion htarget
  · trivial
  · trivial
  have hslot : m.targetSlot ≠ v := fun h => htarget (.inr h)
  cases crypto.verify m.signedBytes m.signature with
  | error e => trivial
  | ok _ =>
    refine under_onOk (under_ask trivial) fun artifact => ?_
    split_ifs
    · trivial
    refine under_onOk (under_ask hslot) fun _ => ?_
    refine under_onOk (under_ask trivial) fun _ => ?_
    exact under_ask hslot

theorem under_stageUpdate (crypto : Crypto) (path : String) :
    Under (I := iface) (SeesActive v) (StageCall v) (stageUpdate crypto path) := by
  refine under_ask_bind trivial fun r _ => ?_
  cases r with
  | error e => exact under_finish _
  | ok m =>
    refine under_ask_bind trivial fun slot hslot => ?_
    have hv : slot = v := hslot
    subst hv
    refine (under_stage crypto m).bind fun r => ?_
    cases r with
    | error e => exact under_finish _
    | ok _ => exact under_finish _

variable {c : Call}

theorem Synced.careful (hw : Synced v w) (hc : StageCall v c) : Careful c w := by
  refine ⟨fun slot hslot => ?_, by rw [hw.marker]; nofun⟩
  rw [hw.marker]
  intro hv
  cases Option.some.inj hv
  cases c with
  | write file content =>
    cases file with
    | runtime target => exact hc hslot
    | _ => exact hslot
  | remove file => exact hc
  | _ => exact hslot

theorem Synced.keeps (hw : Synced v w) (hc : StageCall v c) (e : Outside) :
    SeesActive v c (perform e c w).1 ∧ Synced v (perform e c w).2 := by
  cases c with
  | sharedActive => exact ⟨hw.active, hw⟩
  | write file content =>
    refine ⟨trivial, ⟨?_, hw.active⟩⟩
    cases file with
    | runtime target => exact hw.marker
    | pending => exact hw.marker
    | _ => exact hc.elim
  | readManifest path => exact ⟨trivial, hw⟩
  | readArtifact path => exact ⟨trivial, hw⟩
  | setPermissions file => exact ⟨trivial, hw⟩
  | reply result => exact ⟨trivial, hw⟩
  | _ => exact hc.elim

theorem Clean.keeps (hw : Synced v w) (hclean : Clean w) (hc : StageCall v c) (e : Outside) :
    Clean (perform e c w).2 := by
  cases c with
  | write file content =>
    cases file with
    | runtime target => exact hclean
    | pending =>
      intro p hp hmarker
      have hcontent : p = content := (Option.some.inj hp).symm
      have hv : v = p.manifest.targetSlot := Option.some.inj (hw.marker.symm.trans hmarker)
      rw [hcontent] at hv
      exact hc hv.symm
    | _ => exact hc.elim
  | remove file => exact hc.elim
  | _ => exact hclean

theorem secure_stageUpdate (crypto : Crypto) (path : String) (hw : Synced v w) :
    Secure calm Careful (fun _ w' => Synced v w') (stageUpdate crypto path) w :=
  secure_of_under (fun _ _ hw hc => hw.careful hc) (fun e _ _ hw hc => hw.keeps hc e)
    (under_stageUpdate crypto path) hw

end Stage

/-! ### `confirm_update` -/

section

variable {v : String} {w : World}

theorem Synced.marker_ne_none (hw : Synced v w) : w.marker ≠ none :=
  hw.marker.trans_ne (some_ne_none v)

/-- What `confirm` does: nothing when it refuses, and otherwise it switches the marker and drops
the pending update. -/
theorem secure_confirm (crypto : Crypto) (target : String) (hw : Synced v w) :
    Secure calm Careful (fun r w' => (∀ e, r = .error e → w' = w) ∧
        ∀ previous, r = .ok previous → w'.marker = some target ∧ w'.disk .pending = none)
      (confirm crypto target) w := by
  have hrefuse : ∀ e : IoError, (∀ e', (.error e : Except IoError String) = .error e' → w = w) ∧
      ∀ previous, (.error e : Except IoError String) = .ok previous →
        w.marker = some target ∧ w.disk .pending = none :=
    fun e => ⟨fun _ _ => rfl, nofun⟩
  have hm := hw.marker_ne_none
  unfold confirm
  split_ifs with hslot
  · exact hrefuse _
  have htarget : isSlot target = true := by
    rwa [Bool.not_eq_false] at hslot
  refine secure_read hm (fun _ => hrefuse _) fun pending hpending => ?_
  split_ifs with hmatch
  · exact hrefuse _
  refine secure_onOk
    (secure_activeSlot (Q := fun r w' => r = .ok v ∧ w' = w) hw.marker ⟨rfl, rfl⟩) ?_ ?_
  · rintro active w' ⟨hactive, rfl⟩
    split_ifs with hprevious
    · exact hrefuse _
    refine secure_read hm (fun _ => hrefuse _) fun staged _ => ?_
    split_ifs with hdigest
    · exact hrefuse _
    -- from here on the markers change
    refine secure_write (careful_of_not_touches (fun _ h => h) hm) ?_
    refine secure_write (careful_of_not_touches (fun _ h => h) hm) ?_
    have hmarker : slotOf (some target) = some target := slotOf_of_isSlot htarget
    have hm' : slotOf (some target) ≠ none := hmarker.trans_ne (some_ne_none _)
    refine secure_remove (careful_of_not_touches (fun _ h => h) hm') ?_ ?_
    · show (w'.disk .pending).isSome = true
      rw [hpending]
      rfl
    refine secure_sync hm' ?_
    exact ⟨nofun, fun _ _ => ⟨hmarker, rfl⟩⟩
  · rintro e w' ⟨herror, -⟩
    cases herror

theorem secure_saveActive {slot : String} (previousState previousSlot status : String)
    (hmarker : w.marker = some slot) (hpending : w.disk .pending = none) :
    Secure calm Careful (fun _ w' => ∃ v', Synced v' w' ∧ Clean w' ∧ w'.locked = false)
      (saveActive previousState previousSlot slot status) w := by
  have hm : w.marker ≠ none := hmarker.trans_ne (some_ne_none _)
  have hquiet : ∀ {c : Call} {w' : World}, (∀ s, ¬ c.touches s) → w'.disk .activeSlot =
      w.disk .activeSlot → Careful c w' := by
    intro c w' hc hdisk
    refine careful_of_not_touches hc ?_
    unfold World.marker
    rwa [hdisk]
  refine ⟨hquiet (fun _ h => h) rfl, fun e₁ => ⟨hquiet (fun _ h => h) rfl, fun e₂ =>
    ⟨hquiet (fun _ h => h) rfl, fun e₃ => ⟨hquiet (fun _ h => h) rfl, fun e₄ => ?_⟩⟩⟩⟩
  refine ⟨slot, ⟨hmarker, rfl⟩, fun p hp => ?_, rfl⟩
  have hp' : w.disk .pending = some p := hp
  rw [hpending] at hp'
  exact absurd hp' nofun

theorem secure_confirmUpdate (crypto : Crypto) (slot : String) (hw : Synced v w) :
    Secure calm Careful (fun _ w' => ∃ v', Synced v' w' ∧ (Clean w → Clean w') ∧
      (w.locked = false → w'.locked = false)) (confirmUpdate crypto slot) w := by
  refine (secure_confirm crypto slot hw).bind fun r w' hr => ?_
  cases r with
  | error e =>
    obtain rfl : w' = w := hr.1 e rfl
    exact ⟨careful_of_not_touches (fun _ h => h) hw.marker_ne_none, fun _ => ⟨v, hw, id, id⟩⟩
  | ok previous =>
    obtain ⟨hmarker, hpending⟩ := hr.2 previous rfl
    have hm : w'.marker ≠ none := hmarker.trans_ne (some_ne_none _)
    refine ⟨careful_of_not_touches (fun _ h => h) hm, fun e₁ =>
      ⟨careful_of_not_touches (fun _ h => h) hm, fun e₂ => ?_⟩⟩
    have hsave := secure_saveActive (w := { w' with locked := true }) w'.active previous
      "confirmed" hmarker hpending
    refine hsave.mono ?_
    rintro a w'' ⟨v', hsynced, hclean, hlocked⟩
    exact ⟨v', hsynced, fun _ => hclean, fun _ => hlocked⟩

/-! ### `rollback_update` -/

theorem secure_dropPending {p : PendingUpdate} (hmarker : w.marker = some v) (hclean : Clean w)
    (hpending : w.disk .pending = some p) :
    Secure calm Careful (fun r w' => r = .ok v ∧ w'.marker = some v ∧ w'.disk .pending = none)
      dropPending w := by
  have hm : w.marker ≠ none := hmarker.trans_ne (some_ne_none _)
  refine secure_read hm (fun hnone => ?_) fun pending hread => ?_
  · rw [hpending] at hnone
    cases hnone
  refine secure_remove (careful_of_not_touches (fun _ h => h) hm) ?_ ?_
  · rw [hread]
    rfl
  refine ⟨⟨fun slot hslot => ?_, hm⟩, fun e => ?_⟩
  · -- the only deletion of an image
    have htarget : pending.manifest.targetSlot = slot := hslot
    subst htarget
    exact hclean pending hread
  have hrest : Secure calm Careful
      (fun r w' => r = .ok v ∧ w'.marker = some v ∧ w'.disk .pending = none)
      (onOk Ask.syncRoot fun _ => activeSlot)
      { w with disk := update (update w.disk .pending none)
                (.runtime pending.manifest.targetSlot) none } :=
    secure_sync hm (secure_activeSlot hmarker ⟨rfl, hmarker, rfl⟩)
  show Secure calm Careful _ (done ((found (w.disk (.runtime pending.manifest.targetSlot))).map
    fun _ => ()) >>= _) _
  cases w.disk (.runtime pending.manifest.targetSlot) with
  | none => exact hrest
  | some image => exact hrest

theorem secure_goBack (hmarker : w.marker = some v) (hpending : w.disk .pending = none) :
    Secure calm Careful (fun r w' => (∀ e, r = .error e → w' = w) ∧
        ∀ slot, r = .ok slot → w'.marker = some slot ∧ w'.disk .pending = none) goBack w := by
  have hm : w.marker ≠ none := hmarker.trans_ne (some_ne_none _)
  refine secure_read hm (fun _ => ⟨fun _ _ => rfl, nofun⟩) fun previous hread => ?_
  split_ifs with hslot
  · exact ⟨fun _ _ => rfl, nofun⟩
  have hprevious : isSlot (trim previous) = true := by
    rwa [Bool.not_eq_false] at hslot
  have hnew : slotOf (some (trim previous)) = some (trim previous) := slotOf_of_isSlot hprevious
  have hm' : slotOf (some (trim previous)) ≠ none := hnew.trans_ne (some_ne_none _)
  refine secure_write (careful_of_not_touches (fun _ h => h) hm) ?_
  refine secure_remove (careful_of_not_touches (fun _ h => h) hm') ?_ ?_
  · show (w.disk .previousActiveSlot).isSome = true
    rw [hread]
    rfl
  refine secure_sync hm' ?_
  refine ⟨nofun, fun slot hok => ?_⟩
  cases Except.ok.inj hok
  exact ⟨hnew, hpending⟩

/-- What `rollback` does: nothing when it refuses, and otherwise the slot that it returns is the
active one and no update is pending. -/
theorem secure_rollback (hmarker : w.marker = some v) (hclean : Clean w) :
    Secure calm Careful (fun r w' => (∀ e, r = .error e → w' = w) ∧
        ∀ slot, r = .ok slot → w'.marker = some slot ∧ w'.disk .pending = none) rollback w := by
  have hm : w.marker ≠ none := hmarker.trans_ne (some_ne_none _)
  refine ⟨careful_of_not_touches (fun _ h => h) hm, fun e => ?_⟩
  show Secure calm Careful _ (if (w.disk .pending).isSome = true then dropPending else goBack) w
  cases hpending : w.disk .pending with
  | none => exact secure_goBack hmarker hpending
  | some p =>
    refine (secure_dropPending hmarker hclean hpending).mono ?_
    rintro r w' ⟨rfl, hmarker', hpending'⟩
    refine ⟨nofun, fun slot hok => ?_⟩
    cases Except.ok.inj hok
    exact ⟨hmarker', hpending'⟩

theorem secure_rollbackUpdate (hw : Synced v w) (hclean : Clean w) :
    Secure calm Careful (fun _ w' => ∃ v', Synced v' w' ∧ Clean w' ∧ w'.locked = false)
      rollbackUpdate w := by
  have hm := hw.marker_ne_none
  refine ⟨careful_of_not_touches (fun _ h => h) hm, fun e₁ =>
    ⟨careful_of_not_touches (fun _ h => h) hm, fun e₂ => ?_⟩⟩
  have hrollback := secure_rollback (w := { w with locked := true }) hw.marker hclean
  refine hrollback.bind fun r w' hr => ?_
  cases r with
  | error e =>
    obtain rfl : w' = { w with locked := true } := hr.1 e rfl
    refine ⟨careful_of_not_touches (fun _ h => h) hm, fun _ =>
      ⟨careful_of_not_touches (fun _ h => h) hm, fun _ => ?_⟩⟩
    exact ⟨v, ⟨hw.marker, hw.active⟩, hclean, rfl⟩
  | ok slot =>
    obtain ⟨hmarker, hpending⟩ := hr.2 slot rfl
    exact secure_saveActive w.active w.active "rolled_back" hmarker hpending

end

/-! ### The start of the process -/

theorem secure_start {w : World} {v : String} (hmarker : w.marker = some v) :
    Secure calm Careful (fun _ w' => Synced v w' ∧ (Clean w → Clean w') ∧ w'.locked = w.locked)
      start w := by
  have hm : w.marker ≠ none := hmarker.trans_ne (some_ne_none _)
  have hsave : ∀ slot : String, Secure calm Careful
      (fun _ w' => Synced v w' ∧ (Clean w → Clean w') ∧ w'.locked = w.locked)
      (onOk activeSlot fun marker => do
        if slot ≠ marker then
          onOk (Ask.write .state marker) fun _ => do
            Ask.setActive marker
            return .ok ()
        else
          Ask.setActive slot
          return .ok ()) w := by
    intro slot
    refine secure_onOk
      (secure_activeSlot (Q := fun r w' => r = .ok v ∧ w' = w) hmarker ⟨rfl, rfl⟩) ?_ ?_
    · rintro marker w' ⟨hok, rfl⟩
      cases Except.ok.inj hok
      split_ifs with hslot
      · refine secure_write (careful_of_not_touches (fun _ h => h) hm) ?_
        refine ⟨careful_of_not_touches (fun _ h => h) hm, fun _ => ?_⟩
        exact ⟨⟨hmarker, rfl⟩, id, rfl⟩
      · refine ⟨careful_of_not_touches (fun _ h => h) hm, fun _ => ?_⟩
        exact ⟨⟨hmarker, not_not.mp hslot⟩, id, rfl⟩
    · rintro e w' ⟨herror, -⟩
      cases herror
  refine ⟨careful_of_not_touches (fun _ h => h) hm, fun e => ?_⟩
  show Secure calm Careful _ (done (found (w.disk .state)) >>= _) w
  cases w.disk .state with
  | none => exact hsave "a"
  | some slot => exact hsave slot

end StarFabric.Onboard

import StarFabric.Onboard.Handlers

/-!
# Stopping and starting again

The process starts, serves requests one after the other, may stop after any number of calls of a
handler, and starts again. A stop in `confirm` can leave a pending update for the slot that is now
active, and a `rollback` after the restart deletes the image of that slot. Otherwise the image of
the active slot is safe.
-/

namespace StarFabric.Onboard

open EffectProgram Prog List Option

/-- A request that is served, or during which the process stops and starts again. -/
inductive Event where
  | served (job : Job)
  | stopped (job : Job) (after : ℕ)

def Event.job : Event → Job
  | served job => job
  | stopped job _ => job

abbrev History := World × List (Call × World)

def boot (es : ℕ → Outside) (s : History) : Except IoError Unit × History :=
  start.run (logged calm es) ({ s.1 with locked := false }, s.2)

def Event.next (crypto : Crypto) (es : ℕ → Outside) (s : History) : Event → History
  | served job => ((job.program crypto).run (logged calm es) s).2
  | stopped job after =>
    (boot es ((job.program crypto).runFor (logged calm es) after s).2).2

def life (crypto : Crypto) (es : ℕ → Outside) (w : World) (events : List Event) : History :=
  events.foldl (Event.next crypto es) (boot es (w, [])).2

/-- The state in memory agrees with the marker, and every call so far was careful. -/
def Sound (s : History) : Prop :=
  (∃ v, Synced v s.1) ∧ ∀ entry ∈ s.2, Careful entry.1 entry.2

section Life

variable {es : ℕ → Outside} {w : World} {s : History}

theorem secure_program {v : String} (crypto : Crypto) (job : Job) (hw : Synced v w)
    (hclean : job = .rollback → Clean w) :
    Secure calm Careful (fun _ w' => ∃ v', Synced v' w') (job.program crypto) w := by
  cases job with
  | stage path => exact (secure_stageUpdate crypto path hw).mono fun _ _ h => ⟨v, h⟩
  | confirm slot =>
    exact (secure_confirmUpdate crypto slot hw).mono fun _ _ ⟨v', h, _⟩ => ⟨v', h⟩
  | rollback =>
    exact (secure_rollbackUpdate hw (hclean rfl)).mono fun _ _ ⟨v', h, _⟩ => ⟨v', h⟩

theorem sound_boot (hmarker : s.1.marker ≠ none) (hlog : ∀ entry ∈ s.2, Careful entry.1 entry.2) :
    Sound (boot es s).2 := by
  obtain ⟨v, hv⟩ := ne_none_iff_exists'.mp hmarker
  have hstart := secure_start (w := { s.1 with locked := false }) hv
  obtain ⟨hcalls, hsynced, -⟩ := hstart.run es hlog
  exact ⟨⟨v, hsynced⟩, hcalls⟩

theorem secure_activeSlot_fails (hmarker : w.marker = none) :
    Secure calm (fun _ _ => True) (fun r w' => (∃ e, r = .error e) ∧ w' = w) activeSlot w := by
  refine ⟨trivial, fun e => ?_⟩
  unfold World.marker slotOf at hmarker
  show Secure calm _ _ (done (found (w.disk .activeSlot)) >>= _) w
  cases hdisk : w.disk .activeSlot with
  | none =>
    rw [hdisk] at hmarker
    cases hmarker
  | some content =>
    rw [hdisk] at hmarker
    dsimp only at hmarker
    split_ifs at hmarker with hslot
    show Secure calm _ _ (if isSlot (trim content) = true then _ else _) w
    rw [if_neg hslot]
    exact ⟨⟨_, rfl⟩, rfl⟩

theorem secure_start_fails (hmarker : w.marker = none) :
    Secure calm (fun _ _ => True) (fun r _ => r ≠ .ok ()) start w := by
  have hactive : ∀ f : String → Prog iface (Except IoError Unit),
      Secure calm (fun _ _ => True) (fun r _ => r ≠ .ok ()) (onOk activeSlot f) w := by
    intro f
    refine (secure_activeSlot_fails hmarker).bind ?_
    rintro r w' ⟨⟨e, rfl⟩, -⟩
    exact nofun
  refine ⟨trivial, fun e => ?_⟩
  show Secure calm _ _ (done (found (w.disk .state)) >>= _) w
  cases w.disk .state with
  | none => exact hactive _
  | some slot => exact hactive _

theorem marker_of_boot (h : (boot es s).1 = .ok ()) : s.1.marker ≠ none := by
  intro hnone
  have hfails := secure_start_fails (w := { s.1 with locked := false }) hnone
  exact (hfails.run es fun _ _ => trivial).2 h

theorem Sound.next (h : Sound s) (crypto : Crypto) (es : ℕ → Outside) (event : Event)
    (hclean : event.job = .rollback → Clean s.1) :
    Sound (event.next crypto es s) := by
  obtain ⟨⟨v, hw⟩, hlog⟩ := h
  cases event with
  | served job =>
    obtain ⟨hcalls, hsynced⟩ := (secure_program crypto job hw hclean).run es hlog
    exact ⟨hsynced, hcalls⟩
  | stopped job after =>
    obtain ⟨hcalls, hstop⟩ := (secure_program crypto job hw hclean).runFor es hlog after
    refine sound_boot ?_ hcalls
    -- wherever the process stops, the marker can be read
    rcases hstop with ⟨_, v', hsynced⟩ | ⟨c, hcareful⟩
    · exact hsynced.marker_ne_none
    · exact hcareful.2

/-- **The active image survives.** In every life of the process, with stops at any point, no call
writes or deletes the image of the slot that the marker names at that moment, provided that no
`rollback` is called while an update is pending for the active slot. -/
theorem active_image_survives (crypto : Crypto) (es : ℕ → Outside) (w : World)
    (hstart : (boot es (w, [])).1 = .ok ()) (events : List Event)
    (hclean : ∀ done event rest, events = done ++ event :: rest → event.job = .rollback →
      Clean (life crypto es w done).1) :
    ∀ entry ∈ (life crypto es w events).2, Harmless entry.1 entry.2 := by
  -- induction on the events so far
  have hlife : ∀ done rest, events = done ++ rest → Sound (life crypto es w done) := by
    intro done
    induction done using reverseRecOn with
    | nil => exact fun _ _ => sound_boot (marker_of_boot hstart) nofun
    | append_singleton done event ih =>
      intro rest hevents
      rw [append_assoc, singleton_append] at hevents
      have hnext := (ih _ hevents).next crypto es event (hclean done event rest hevents)
      unfold life
      rw [foldl_append]
      exact hnext
  intro entry hentry
  exact ((hlife events [] (append_nil events).symm).2 entry hentry).1

end Life

/-- An update is staged, the process stops before the marker is switched, and the update is
rolled back. -/
theorem active_image_survives_stop :
    (boot (fun _ => toyOutside) (toyWorld, [])).1 = .ok () ∧
      ∀ entry ∈ (life toyCrypto (fun _ => toyOutside) toyWorld
        [.served (.stage "m"), .stopped (.confirm "b") 4, .served .rollback]).2,
        Harmless entry.1 entry.2 := by
  refine ⟨rfl, active_image_survives toyCrypto _ toyWorld rfl _ fun done event rest h hjob => ?_⟩
  -- the only rollback is the third event
  have hdone : done = [.served (.stage "m"), .stopped (.confirm "b") 4] := by
    rcases done with _ | ⟨first, _ | ⟨second, _ | ⟨third, tail⟩⟩⟩
    · cases (cons.inj h).1
      cases hjob
    · cases (cons.inj (cons.inj h).2).1
      cases hjob
    · simp only [cons_append, nil_append, cons.injEq] at h
      rw [← h.1, ← h.2.1]
    · simp at h
  subst hdone
  have hother : ∀ p ∈ (life toyCrypto (fun _ => toyOutside) toyWorld
      [.served (.stage "m"), .stopped (.confirm "b") 4]).1.disk .pending,
      (life toyCrypto (fun _ => toyOutside) toyWorld
        [.served (.stage "m"), .stopped (.confirm "b") 4]).1.marker ≠ some p.manifest.targetSlot := by
    decide +kernel
  exact hother

/-- The process stops in `confirm`, after the marker names `b` and before the pending update is
removed. After the restart a `rollback` deletes the image of `b`. -/
theorem rollback_deletes_active_image :
    (boot (fun _ => toyOutside) (toyWorld, [])).1 = .ok () ∧
      ∃ entry ∈ (life toyCrypto (fun _ => toyOutside) toyWorld
        [.served (.stage "m"), .stopped (.confirm "b") 5, .served .rollback]).2,
        ¬ Harmless entry.1 entry.2 := by
  decide +kernel

end StarFabric.Onboard

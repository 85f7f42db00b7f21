import StarFabric.Onboard.Update

/-!
# The state directory

Files as a map from paths to contents. `perform` is what a call does when nothing goes wrong.
`handle` adds failing operations: one that fails may have taken effect all the same. A call is
`Harmless` in a world when it does not write or delete the image of the slot that the marker names
there (`World.marker`).
-/

namespace StarFabric.Onboard

open EffectProgram Function Option

abbrev Disk := (file : File) → Option file.Content

/-- The state directory, the state in memory with its lock, and the number of calls so far. -/
structure World where
  disk : Disk
  active : String := "a"
  locked : Bool := false
  tick : ℕ := 0

structure Outside where
  manifest : Except IoError UpdateManifest
  artifact : Except IoError Bytes

/-- A failing operation: its error, and whether it has taken effect. -/
structure Fault where
  text : String
  effect : Bool

structure Env extends Outside where
  fault : Option Fault := none

def found {α : Type} : Option α → Except IoError α
  | some content => .ok content
  | none => .error .notFound

def perform (e : Outside) : (c : Call) → World → c.Answer × World
  | .readManifest _, w => (e.manifest, w)
  | .readArtifact _, w => (e.artifact, w)
  | .read file, w => (found (w.disk file), w)
  | .write file content, w =>
    (.ok (), { w with disk := update w.disk file (some content) })
  | .remove file, w =>
    ((found (w.disk file)).map fun _ => (), { w with disk := update w.disk file none })
  | .pathExists file, w => ((w.disk file).isSome, w)
  | .setPermissions file, w => ((found (w.disk file)).map fun _ => (), w)
  | .syncRoot, w => (.ok (), w)
  | .sharedActive, w => (w.active, w)
  | .getActive, w => (w.active, w)
  | .setActive slot, w => ((), { w with active := slot })
  | .lock, w => ((), { w with locked := true })
  | .unlock, w => ((), { w with locked := false })
  | .reply _, w => ((), w)

/-- The answer of an operation that fails. A path that cannot be looked at does not exist. The
state in memory does not fail. -/
def Call.failed (text : String) : (c : Call) → Option c.Answer
  | .readManifest _ => some (.error (.other text))
  | .readArtifact _ => some (.error (.other text))
  | .read _ => some (.error (.other text))
  | .write _ _ => some (.error (.other text))
  | .remove _ => some (.error (.other text))
  | .setPermissions _ => some (.error (.other text))
  | .syncRoot => some (.error (.other text))
  | .pathExists _ => some false
  | _ => none

def handle (env : ℕ → Env) : Handler iface World := fun c w =>
  let e := env w.tick
  let w : World := { w with tick := w.tick + 1 }
  match e.fault with
  | none => perform e.toOutside c w
  | some fault =>
    match c.failed fault.text with
    | none => perform e.toOutside c w
    | some answer => (answer, if fault.effect then (perform e.toOutside c w).2 else w)

/-! ### The marker -/

/-- What `active_slot` makes of the content of the marker file. -/
def slotOf : Option String → Option String
  | none => some "a"
  | some content => if isSlot (trim content) then some (trim content) else none

def World.marker (w : World) : Option String := slotOf (w.disk .activeSlot)

variable {slot : String}

theorem isSlot_iff : isSlot slot = true ↔ slot = "a" ∨ slot = "b" := by
  unfold isSlot
  rw [Bool.or_eq_true, beq_iff_eq, beq_iff_eq]

theorem trim_of_isSlot (h : isSlot slot = true) : trim slot = slot := by
  rcases isSlot_iff.mp h with rfl | rfl <;> decide +kernel

theorem slotOf_of_isSlot (h : isSlot slot = true) : slotOf (some slot) = some slot := by
  unfold slotOf
  dsimp only
  rw [trim_of_isSlot h, if_pos h]

theorem isSlot_of_slotOf {content : Option String} (h : slotOf content = some slot) :
    isSlot slot = true := by
  unfold slotOf at h
  cases content with
  | none => exact Option.some.inj h ▸ rfl
  | some text =>
    dsimp only at h
    split_ifs at h with hslot
    exact Option.some.inj h ▸ hslot

/-! ### Images -/

def Call.touches : Call → String → Prop
  | .write (.runtime slot) _, target => slot = target
  | .remove (.runtime slot), target => slot = target
  | _, _ => False

def Harmless (c : Call) (w : World) : Prop := ∀ slot, c.touches slot → w.marker ≠ some slot

def Call.image : Call → Option String
  | .write (.runtime slot) _ => some slot
  | .remove (.runtime slot) => some slot
  | _ => none

theorem Call.touches_iff {c : Call} : c.touches slot ↔ slot ∈ c.image := by
  cases c with
  | write file content =>
    cases file with
    | runtime target => exact some_inj.symm
    | _ => exact ⟨False.elim, nofun⟩
  | remove file =>
    cases file with
    | runtime target => exact some_inj.symm
    | _ => exact ⟨False.elim, nofun⟩
  | _ => exact ⟨False.elim, nofun⟩

instance decidableHarmless (c : Call) (w : World) : Decidable (Harmless c w) :=
  decidable_of_iff (∀ slot ∈ c.image, w.marker ≠ some slot)
    (forall_congr' fun _ => imp_congr_left Call.touches_iff.symm)

/-! ### What a call does to the directory -/

section

variable {env : ℕ → Env} {w : World}

def Call.Reads : Call → Prop
  | .write _ _ | .remove _ => False
  | _ => True

theorem perform_reads {e : Outside} {c : Call} (h : c.Reads) : (perform e c w).2.disk = w.disk := by
  cases c with
  | write file content => exact h.elim
  | remove file => exact h.elim
  | _ => rfl

theorem perform_disk {e : Outside} {c : Call} :
    (perform e c { w with tick := w.tick + 1 }).2.disk = (perform e c w).2.disk := by
  cases c <;> rfl

/-- A call is performed, or it fails and may have been performed all the same. -/
theorem handle_cases (env : ℕ → Env) (c : Call) (w : World) {done : c.Answer × World}
    (h : perform (env w.tick).toOutside c { w with tick := w.tick + 1 } = done) :
    handle env c w = done ∨ ∃ fault answer, (env w.tick).fault = some fault ∧
      c.failed fault.text = some answer ∧
      handle env c w = (answer, if fault.effect then done.2 else { w with tick := w.tick + 1 }) := by
  unfold handle
  dsimp only
  rw [h]
  cases (env w.tick).fault with
  | none => exact .inl rfl
  | some fault =>
    dsimp only
    cases hfailed : c.failed fault.text with
    | none => exact .inl rfl
    | some answer => exact .inr ⟨fault, answer, rfl, hfailed, rfl⟩

theorem handle_disk (env : ℕ → Env) (c : Call) (w : World) :
    (handle env c w).2.disk = w.disk ∨
      (handle env c w).2.disk = (perform (env w.tick).toOutside c w).2.disk := by
  rcases handle_cases env c w rfl with h | ⟨fault, answer, -, -, h⟩ <;> rw [h]
  · exact .inr perform_disk
  · dsimp only
    split_ifs
    · exact .inr perform_disk
    · exact .inl rfl

theorem handle_reads {c : Call} (h : c.Reads) : (handle env c w).2.disk = w.disk := by
  rcases handle_disk env c w with hsame | hperformed
  · exact hsame
  · rw [hperformed, perform_reads h]

theorem handle_answer (env : ℕ → Env) (c : Call) (w : World) :
    (handle env c w).1 = (perform (env w.tick).toOutside c { w with tick := w.tick + 1 }).1 ∧
        (handle env c w).2.disk = (perform (env w.tick).toOutside c w).2.disk ∨
      ∃ text, c.failed text = some (handle env c w).1 := by
  rcases handle_cases env c w rfl with h | ⟨fault, answer, -, hfailed, h⟩ <;> rw [h]
  · exact .inl ⟨rfl, perform_disk⟩
  · exact .inr ⟨fault.text, hfailed⟩

variable {file : File}

theorem found_eq_ok {α : Type} {content : Option α} {a : α} (h : found content = .ok a) :
    content = some a := by
  cases content with
  | none => cases h
  | some b => rw [Except.ok.inj h]

variable {content : file.Content}

theorem handle_read_ok (h : (handle env (.read file) w).1 = .ok content) :
    w.disk file = some content := by
  rcases handle_answer env (.read file) w with ⟨hanswer, -⟩ | ⟨text, hfailed⟩
  · exact found_eq_ok (hanswer.symm.trans h)
  · rw [h] at hfailed
    cases hfailed

theorem handle_read_notFound (h : (handle env (.read file) w).1 = .error .notFound) :
    w.disk file = none := by
  rcases handle_answer env (.read file) w with ⟨hanswer, -⟩ | ⟨text, hfailed⟩
  · have hnone : found (w.disk file) = .error .notFound := hanswer.symm.trans h
    cases hdisk : w.disk file with
    | none => rfl
    | some content =>
      rw [hdisk] at hnone
      cases hnone
  · rw [h] at hfailed
    have herror := Except.error.inj (Option.some.inj hfailed)
    cases herror

theorem handle_write_ok (h : (handle env (.write file content) w).1 = .ok ()) :
    (handle env (.write file content) w).2.disk = update w.disk file (some content) := by
  rcases handle_answer env (.write file content) w with ⟨-, hdisk⟩ | ⟨text, hfailed⟩
  · exact hdisk
  · rw [h] at hfailed
    cases hfailed

end

/-! ### A small directory -/

def toyCrypto : Crypto where
  verify _ signature := if signature = "signed" then .ok () else .error "signature error"
  sha256 image := String.ofList (image.map fun byte => Char.ofNat (97 + byte.toNat))

def toyManifest (slot : String) : UpdateManifest where
  version := "2.0.0"
  targetSlot := slot
  artifact := "candidate"
  sha256 := "c"
  signature := "signed"

/-- What is found outside: the artifact for the slot `b`. -/
def toyOutside : Outside := ⟨.ok (toyManifest "b"), .ok [2]⟩

/-- The image `[1]` in the slot `a`, and no other file. -/
def toyWorld : World where
  disk
    | .runtime slot => if slot = "a" then some [1] else none
    | .pending => none
    | .activeSlot => none
    | .previousActiveSlot => none
    | .state => none

end StarFabric.Onboard

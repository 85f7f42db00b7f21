import StarFabric.Go.Basic

/-!
# Crash-consistent file replacement

`internal/durable/file.go`: a state file is replaced by writing a temporary file beside it, syncing
it, renaming it over the path and syncing the directory. Each step may fail, and the steps before it
stay done, so a call that reports an error has replaced the file exactly when it failed after the
rename (`writeFile_file`).
-/

namespace StarFabric.Durable

/-- The steps of `WriteFile` that can fail, in program order. -/
inductive WriteStep where
  | mkdirAll
  | createTemp
  | write
  | sync
  | chmod
  | close
  | rename
  | openDir
  | syncDir
  deriving DecidableEq, Repr

namespace WriteStep

/-- The step comes after the rename, so that the file is already replaced. -/
def afterRename : WriteStep → Bool
  | openDir | syncDir => true
  | _ => false

end WriteStep

/-- A failing step and the error the operating system gives for it. -/
structure WriteFault where
  step : WriteStep
  error : String
  deriving DecidableEq, Repr

variable {α : Type}

/-- `WriteFile`: the error, if any, and the content of the file afterwards.
`fault` is the step that fails, if one does. -/
def writeFile (path : String) (data : α) (fault : Option WriteFault) (file : Option α) :
    Option String × Option α :=
  if path = "" then (none, file)
  else match fault with
    | none => (none, some data)
    | some f => (some f.error, if f.step.afterRename then some data else file)

theorem writeFile_file (path : String) (data : α) (fault : Option WriteFault)
    (file : Option α) :
    (writeFile path data fault file).2 = file ∨ (writeFile path data fault file).2 = some data := by
  unfold writeFile
  split_ifs with hpath
  · exact .inl rfl
  cases fault with
  | none => exact .inr rfl
  | some f =>
    cases hstep : f.step.afterRename with
    | false => exact .inl (by simp [hstep])
    | true => exact .inr (by simp [hstep])

variable {path : String}

theorem writeFile_ok {data : α} {fault : Option WriteFault} {file : Option α} (hpath : path ≠ "")
    (h : (writeFile path data fault file).1 = none) :
    (writeFile path data fault file).2 = some data := by
  unfold writeFile at h ⊢
  rw [if_neg hpath] at h ⊢
  cases fault with
  | none => rfl
  | some f => cases h

theorem writeFile_of_no_fault (hpath : path ≠ "") (data : α) (file : Option α) :
    writeFile path data none file = (none, some data) :=
  if_neg hpath

theorem writeFile_of_early_fault (hpath : path ≠ "") {fault : WriteFault}
    (hstep : fault.step.afterRename = false) (data : α) (file : Option α) :
    writeFile path data (some fault) file = (some fault.error, file) := by
  unfold writeFile
  rw [if_neg hpath]
  show (_, if fault.step.afterRename then _ else _) = _
  rw [hstep]
  rfl

end StarFabric.Durable

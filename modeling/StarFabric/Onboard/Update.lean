import StarFabric.Lib.Threads

/-!
# Signed updates of the onboard runtime

`onboard/src/update.rs` and the update handlers of `onboard/src/main.rs`. `stage` verifies a signed
artifact and writes it into the inactive one of two slots, `confirm` makes that slot the active one,
`rollback` drops a staged update or goes back. Everything is a program over single file operations
(`Call`). Signature checking and hashing are parameters (`Crypto`).
-/

namespace StarFabric.Onboard

open EffectProgram

/-! ### Text -/

def isWhitespace (c : Char) : Bool :=
  let n := c.toNat
  (9 ≤ n && n ≤ 13) || n == 0x20 || n == 0x85 || n == 0xa0 || n == 0x1680 ||
    (0x2000 ≤ n && n ≤ 0x200a) || n == 0x2028 || n == 0x2029 || n == 0x202f || n == 0x205f ||
    n == 0x3000

@[irreducible] def trim (s : String) : String :=
  String.ofList (((s.toList.dropWhile isWhitespace).reverse.dropWhile isWhitespace).reverse)

def eqIgnoreAsciiCase (s t : String) : Bool :=
  s.toList.map Char.toLower == t.toList.map Char.toLower

def isSlot (slot : String) : Bool := slot == "a" || slot == "b"

/-! ### Files and calls -/

abbrev Bytes := List UInt8

structure UpdateManifest where
  version : String
  targetSlot : String
  artifact : String
  sha256 : String
  signature : String
  deriving DecidableEq, Repr

def UpdateManifest.signedBytes (m : UpdateManifest) : String :=
  m.version ++ "\x00" ++ m.targetSlot ++ "\x00" ++ m.artifact ++ "\x00" ++ m.sha256

structure PendingUpdate where
  manifest : UpdateManifest
  previousSlot : String
  deriving DecidableEq, Repr

/-- The key of the `SlotManager` and the two cryptographic functions. `verify` decodes a hex
signature and checks it, `sha256` is the hex text of the digest. -/
structure Crypto where
  verify : (message signature : String) → Except String Unit
  sha256 : Bytes → String

inductive File where
  | runtime (slot : String)
  | pending
  | activeSlot
  | previousActiveSlot
  | state
  deriving DecidableEq, Repr

/-- What a file holds. Of the node state, only `active_slot` is kept. -/
abbrev File.Content : File → Type
  | runtime _ => Bytes
  | pending => PendingUpdate
  | activeSlot | previousActiveSlot | state => String

/-- `io::Error`, by the kinds that are told apart. -/
inductive IoError where
  | notFound
  | other (text : String)
  deriving DecidableEq, Repr

def IoError.text : IoError → String
  | notFound => "No such file or directory (os error 2)"
  | other text => text

/-- The operations on files, on the state behind its lock, and the reply of a handler.
`sharedActive` takes the read lock, reads the active slot and releases the lock. -/
inductive Call where
  | readManifest (path : String)
  | readArtifact (path : String)
  | read (file : File)
  | write (file : File) (content : file.Content)
  | remove (file : File)
  | pathExists (file : File)
  | setPermissions (file : File)
  | syncRoot
  | sharedActive
  | lock
  | unlock
  | getActive
  | setActive (slot : String)
  | reply (result : Except IoError String)

def Call.Answer : Call → Type
  | readManifest _ => Except IoError UpdateManifest
  | readArtifact _ => Except IoError Bytes
  | read file => Except IoError file.Content
  | write _ _ | remove _ | setPermissions _ | syncRoot => Except IoError Unit
  | pathExists _ => Bool
  | sharedActive | getActive => String
  | lock | unlock | setActive _ | reply _ => Unit

def iface : Interface := ⟨Call, Call.Answer⟩

namespace Ask

def readManifest (path : String) : Prog iface (Except IoError UpdateManifest) :=
  Prog.ask (I := iface) (Call.readManifest path)

def readArtifact (path : String) : Prog iface (Except IoError Bytes) :=
  Prog.ask (I := iface) (Call.readArtifact path)

def read (file : File) : Prog iface (Except IoError file.Content) :=
  Prog.ask (I := iface) (Call.read file)

def write (file : File) (content : file.Content) : Prog iface (Except IoError Unit) :=
  Prog.ask (I := iface) (Call.write file content)

def remove (file : File) : Prog iface (Except IoError Unit) :=
  Prog.ask (I := iface) (Call.remove file)

def pathExists (file : File) : Prog iface Bool := Prog.ask (I := iface) (Call.pathExists file)

def setPermissions (file : File) : Prog iface (Except IoError Unit) :=
  Prog.ask (I := iface) (Call.setPermissions file)

def syncRoot : Prog iface (Except IoError Unit) := Prog.ask (I := iface) Call.syncRoot
def sharedActive : Prog iface String := Prog.ask (I := iface) Call.sharedActive
def lock : Prog iface Unit := Prog.ask (I := iface) Call.lock
def unlock : Prog iface Unit := Prog.ask (I := iface) Call.unlock
def getActive : Prog iface String := Prog.ask (I := iface) Call.getActive
def setActive (slot : String) : Prog iface Unit := Prog.ask (I := iface) (Call.setActive slot)

def reply (result : Except IoError String) : Prog iface Unit :=
  Prog.ask (I := iface) (Call.reply result)

end Ask

/-- The `?` operator: go on with a result, return an error. -/
def onOk {α β : Type} (p : Prog iface (Except IoError α))
    (f : α → Prog iface (Except IoError β)) : Prog iface (Except IoError β) := do
  match ← p with
  | .ok a => f a
  | .error e => return .error e

/-! ### `SlotManager` -/

def stage (crypto : Crypto) (manifest : UpdateManifest) (activeSlot : String) :
    Prog iface (Except IoError Unit) :=
  if trim manifest.version = "" then return .error (.other "update version is required")
  else if isSlot manifest.targetSlot = false ∨ manifest.targetSlot = activeSlot then
    return .error (.other "update must target inactive slot a or b")
  else
    -- the signature covers the digest, and the digest covers the artifact
    match crypto.verify manifest.signedBytes manifest.signature with
    | .error e => return .error (.other e)
    | .ok () =>
      onOk (Ask.readArtifact manifest.artifact) fun artifact =>
        if eqIgnoreAsciiCase (crypto.sha256 artifact) manifest.sha256 = false then
          return .error (.other "artifact SHA-256 mismatch")
        else
          -- the image is in place before the pending file names it
          onOk (Ask.write (.runtime manifest.targetSlot) artifact) fun _ =>
            onOk (Ask.setPermissions (.runtime manifest.targetSlot)) fun _ =>
              Ask.write .pending ⟨manifest, activeSlot⟩

def activeSlot : Prog iface (Except IoError String) := do
  match ← Ask.read .activeSlot with
  | .ok slot =>
    if isSlot (trim slot) then return .ok (trim slot)
    else return .error (.other "active-slot marker is invalid")
  -- a node that was never updated
  | .error .notFound => return .ok "a"
  | .error e => return .error e

def confirm (crypto : Crypto) (targetSlot : String) : Prog iface (Except IoError String) :=
  if isSlot targetSlot = false then return .error (.other "invalid slot")
  else
    onOk (Ask.read .pending) fun pending =>
      if pending.manifest.targetSlot ≠ targetSlot then
        return .error (.other "confirmed slot does not match pending update")
      else
        onOk activeSlot fun active =>
          -- another update or a rollback has switched the slot since the staging
          if active ≠ pending.previousSlot then
            return .error (.other "active slot changed after update staging")
          else
            onOk (Ask.read (.runtime targetSlot)) fun staged =>
              -- the image is hashed again: it may have changed on disk
              if eqIgnoreAsciiCase (crypto.sha256 staged) pending.manifest.sha256 = false then
                return .error (.other "staged slot SHA-256 changed before confirmation")
              else
                onOk (Ask.write .previousActiveSlot active) fun _ =>
                  -- here the next boot is decided
                  onOk (Ask.write .activeSlot targetSlot) fun _ =>
                    onOk (Ask.remove .pending) fun _ =>
                      onOk Ask.syncRoot fun _ => return .ok active

/-- The part of `rollback` for a pending update: drop it and its image. -/
def dropPending : Prog iface (Except IoError String) :=
  onOk (Ask.read .pending) fun pending =>
    onOk (Ask.remove .pending) fun _ => do
      match ← Ask.remove (.runtime pending.manifest.targetSlot) with
      -- an image that is gone already is no error
      | .ok () | .error .notFound => onOk Ask.syncRoot fun _ => activeSlot
      | .error e => return .error e

/-- The part of `rollback` without a pending update: back to the previous slot. -/
def goBack : Prog iface (Except IoError String) :=
  onOk (Ask.read .previousActiveSlot) fun previous =>
    if isSlot (trim previous) = false then
      return .error (.other "previous-active-slot marker is invalid")
    else
      onOk (Ask.write .activeSlot (trim previous)) fun _ =>
        -- one step back only: there is no previous slot afterwards
        onOk (Ask.remove .previousActiveSlot) fun _ =>
          onOk Ask.syncRoot fun _ => return .ok (trim previous)

def rollback : Prog iface (Except IoError String) := do
  if ← Ask.pathExists .pending then dropPending else goBack

def restoreActiveSlot (slot : String) : Prog iface (Except IoError Unit) :=
  if isSlot slot = false then return .error (.other "invalid slot")
  else Ask.write .activeSlot slot

/-! ### The handlers -/

def finish (result : Except IoError String) : Prog iface Verdict := do
  Ask.reply result
  return .stop

def stageUpdate (crypto : Crypto) (manifestPath : String) : Prog iface Verdict := do
  match ← Ask.readManifest manifestPath with
  | .error e => finish (.error e)
  | .ok manifest =>
    -- the read lock is released before `stage` runs
    let active ← Ask.sharedActive
    match ← stage crypto manifest active with
    | .error e => finish (.error e)
    | .ok () => finish (.ok "staged")

/-- The end of `confirm_update` and `rollback_update`, with the lock held: save the new active
slot, and put the state and the marker back when that fails. -/
def saveActive (previousState previousSlot slot status : String) : Prog iface Verdict := do
  Ask.setActive slot
  match ← Ask.write .state slot with
  | .ok () =>
    Ask.unlock
    finish (.ok status)
  | .error e =>
    -- memory first, then the marker on disk
    Ask.setActive previousState
    let restored ← restoreActiveSlot previousSlot
    Ask.unlock
    match restored with
    | .ok () => finish (.error e)
    | .error restore =>
      finish (.error (.other (e.text ++ "; restore active slot: " ++ restore.text)))

/-- `confirm_update`. The marker is switched before the lock is taken. -/
def confirmUpdate (crypto : Crypto) (slot : String) : Prog iface Verdict := do
  match ← confirm crypto slot with
  | .error e => finish (.error e)
  | .ok previousSlot =>
    Ask.lock
    let previousState ← Ask.getActive
    saveActive previousState previousSlot slot "confirmed"

def rollbackUpdate : Prog iface Verdict := do
  Ask.lock
  let previousSlot ← Ask.getActive
  match ← rollback with
  | .error e =>
    Ask.unlock
    finish (.error e)
  | .ok active => saveActive previousSlot previousSlot active "rolled_back"

/-- The start of `main`: the state is made to agree with the marker. An error ends the process. -/
def start : Prog iface (Except IoError Unit) := do
  let loaded : Except IoError String := match ← Ask.read .state with
    | .ok slot => .ok slot
    | .error .notFound => .ok "a"
    | .error e => .error e
  match loaded with
  | .error e => return .error e
  | .ok slot =>
    onOk activeSlot fun marker => do
      -- the marker decides which slot has booted
      if slot ≠ marker then
        onOk (Ask.write .state marker) fun _ => do
          Ask.setActive marker
          return .ok ()
      else
        Ask.setActive slot
        return .ok ()

inductive Job where
  | stage (manifestPath : String)
  | confirm (slot : String)
  | rollback
  deriving DecidableEq, Repr

def Job.program (crypto : Crypto) : Job → Prog iface Verdict
  | stage path => stageUpdate crypto path
  | confirm slot => confirmUpdate crypto slot
  | rollback => rollbackUpdate

end StarFabric.Onboard

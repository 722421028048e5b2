import MsysHal.ForStd.Prog
import MsysHal.Python.Affine

/-!
# The touch calibration of the CH347 backend

The calibration methods of `Ch347ControlBackend` (`msys_hal/ch347.py`). Every
public method, and one round of the watcher thread, holds the lock of the backend
from its first to its last step, so each is one `Call` and runs alone. Its steps
are the operations of `TouchOp`: the accesses to the two affine documents and to
the preview slot, and what the environment answers (the receipt and the owner
file of the display provider, the signal, the clock, the files of the other
settings). `touchMachine` says what an operation does; the environment decides
at each step which reads, writes and signals fail.
-/

namespace MsysHal.Ch347

open Python (Value)
open Interleave (Sig Prog Machine)

/-! ## State -/

/-- `PHYSICAL_ROTATIONS`. -/
inductive Rotation where
  | normal
  | right
  | left
  | inverted
deriving DecidableEq, Repr

/-- The rotation a text names. -/
def Rotation.of : String → Option Rotation
  | "normal" => some .normal
  | "right" => some .right
  | "left" => some .left
  | "inverted" => some .inverted
  | _ => none

/-- The rotation and the geometry a calibration is made for. -/
structure Basis where
  rotation : Rotation
  width : Int
  height : Int
deriving DecidableEq, Repr

/-- What `_load_rotation` and `_load_calibration` return of the basis. -/
structure BasisFiles where
  rotation : Rotation
  rotationError : Option String := none
  provisioned : Bool := true
  width : Int
  height : Int
  calibrationError : Option String := none

/-- The basis the files give; `none` while one of them is missing or invalid. -/
def BasisFiles.basis (files : BasisFiles) : Option Basis :=
  if files.rotationError.isSome || files.calibrationError.isSome || !files.provisioned then none
  else if files.rotation = .right ∨ files.rotation = .left then
    some ⟨files.rotation, files.height, files.width⟩
  else some ⟨files.rotation, files.width, files.height⟩

/-- A preview before it is put in the slot. -/
structure Draft where
  token : String
  revision : Nat
  matrix : Affine
  savedRevision : Nat
  savedMatrix : Affine
  basis : Basis
  deadline : ℚ

/-- The preview in the slot; its `id` stands for the identity of the object and
    of its `stop` event, and is the place of its watcher. -/
structure Preview extends Draft where
  id : Nat

/-- A watcher thread: the token it was started with, whether its `stop` event is
    set, and whether the thread runs. -/
structure Watcher where
  token : String
  stop : Bool
  alive : Bool
deriving DecidableEq

/-- The two affine documents the backend writes. -/
inductive AffineFile where
  | persistent
  | effective
deriving DecidableEq

/-- The name of a document's file. -/
def AffineFile.name : AffineFile → String
  | .persistent => "touch_affine.env"
  | .effective => "touch-affine.effective.env"

/-- Whether a document carries an undo value. -/
def AffineFile.state : AffineFile → Bool
  | .persistent => true
  | .effective => false

/-- The state of the backend: the texts of its two documents, the preview slot,
    and the watcher threads in the order they were started. -/
structure Backend where
  persistent : Option (List Char)
  effective : Option (List Char)
  preview : Option Preview
  watchers : List Watcher

/-- The text of a document. -/
def Backend.file (s : Backend) : AffineFile → Option (List Char)
  | .persistent => s.persistent
  | .effective => s.effective

/-- Replace the text of a document. -/
def Backend.write (s : Backend) (text : List Char) : AffineFile → Backend
  | .persistent => { s with persistent := some text }
  | .effective => { s with effective := some text }

/-- Change one watcher. -/
def Backend.setWatcher (s : Backend) (id : Nat) (f : Watcher → Watcher) : Backend :=
  { s with watchers := s.watchers.modify id f }

/-- `_clear_preview`: set the `stop` event, and empty the slot if it holds the preview. -/
def Backend.clear (s : Backend) (id : Nat) : Backend :=
  { s.setWatcher id ({ · with stop := true }) with
    preview := s.preview.filter fun preview => preview.id != id }

/-- The end of a watcher thread. -/
def Backend.endWatcher (s : Backend) (id : Nat) : Backend :=
  s.setWatcher id ({ · with alive := false })

/-- Put a preview in the slot, with a watcher that does not run yet. -/
def Backend.install (s : Backend) (draft : Draft) : Backend :=
  { s with
    preview := some { draft with id := s.watchers.length }
    watchers := s.watchers ++ [⟨draft.token, false, false⟩] }

/-! ## Operations -/

/-- The parts of `set_state` that do not touch the calibration. -/
inductive Stage where
  | calibration
  | rotation
  | documents
  | restart
  | state
deriving DecidableEq

/-- The steps of the backend. -/
inductive TouchOp where
  | read (file : AffineFile)
  | write (file : AffineFile) (text : List Char)
  | readApplied
  | readOwner
  | pidAlive (pid : Nat)
  | signal (pid : Nat)
  | polls
  | configured
  | othersApplied
  | loadBasis
  | clock
  | newToken
  | slot
  | install (draft : Draft)
  | startWatcher (id : Nat)
  | clear (id : Nat)
  | wake (id : Nat)
  | endWatcher (id : Nat)
  | settings
  | external (stage : Stage)

/-- What the environment decides at a step. -/
abbrev TouchOp.Env : TouchOp → Type
  | .read _ => Option HalError
  | .write _ _ => Option PyError
  | .readApplied => Except HalError (Option (List Char))
  | .readOwner => Except HalError (Option (List Char))
  | .pidAlive _ => Bool
  | .signal _ => Bool
  | .polls => Nat
  | .configured => Bool
  | .othersApplied => Bool
  | .loadBasis => BasisFiles
  | .clock => ℚ
  | .newToken => String
  | .startWatcher _ => Bool
  | .settings => Except PyError (Bool × Bool)
  | .external _ => Except PyError Unit
  | .slot | .install _ | .clear _ | .wake _ | .endWatcher _ => Unit

/-- The answer of a step. -/
abbrev TouchOp.Ret : TouchOp → Type
  | .read _ => Except PyError (Option (List Char))
  | .write _ _ => Except PyError Unit
  | .slot => Option Preview
  | .install _ => Nat
  | .wake _ => Watcher
  | .readApplied => Except HalError (Option (List Char))
  | .readOwner => Except HalError (Option (List Char))
  | .pidAlive _ => Bool
  | .signal _ => Bool
  | .polls => Nat
  | .configured => Bool
  | .othersApplied => Bool
  | .loadBasis => BasisFiles
  | .clock => ℚ
  | .newToken => String
  | .startWatcher _ => Bool
  | .settings => Except PyError (Bool × Bool)
  | .external _ => Except PyError Unit
  | .clear _ | .endWatcher _ => Unit

/-- The operations and their answers. -/
abbrev touchSig : Sig := ⟨TouchOp, TouchOp.Ret⟩

/-- What a step answers and does. The state is touched only by the writes and by
    the steps on the slot and the watchers; a watcher wakes only while it runs. -/
def touchExec : (o : TouchOp) → o.Env → Backend → Option (o.Ret × Backend)
  | .read _, some fault, s => some (.error (.hal fault), s)
  | .read file, none, s => some (.ok (s.file file), s)
  | .write _ _, some fault, s => some (.error fault, s)
  | .write file text, none, s => some (.ok (), s.write text file)
  | .slot, _, s => some (s.preview, s)
  | .install draft, _, s => some (s.watchers.length, s.install draft)
  | .startWatcher id, started, s => some (started, s.setWatcher id ({ · with alive := started }))
  | .clear id, _, s => some ((), s.clear id)
  | .wake id, _, s =>
    match s.watchers[id]? with
    | some watcher => if watcher.alive then some (watcher, s) else none
    | none => none
  | .endWatcher id, _, s => some ((), s.endWatcher id)
  | .readApplied, answer, s => some (answer, s)
  | .readOwner, answer, s => some (answer, s)
  | .pidAlive _, answer, s => some (answer, s)
  | .signal _, answer, s => some (answer, s)
  | .polls, answer, s => some (answer, s)
  | .configured, answer, s => some (answer, s)
  | .othersApplied, answer, s => some (answer, s)
  | .loadBasis, answer, s => some (answer, s)
  | .clock, answer, s => some (answer, s)
  | .newToken, answer, s => some (answer, s)
  | .settings, answer, s => some (answer, s)
  | .external _, answer, s => some (answer, s)

/-- The backend; an input is what the environment would decide at each operation. -/
def touchMachine : Machine touchSig Backend ((o : TouchOp) → o.Env) where
  exec o input s := touchExec o (input o) s

/-- A method of the backend. -/
abbrev TouchM := Prog touchSig PyError

/-- One operation. -/
def op (o : TouchOp) : TouchM o.Ret := Prog.perform (S := touchSig) o

/-- Raise a `HalError`. -/
def fail {α : Type} (error : HalError) : TouchM α := Prog.raise (.hal error)

/-- What the backend is configured with. -/
structure Config where
  floats : Floats
  targetComponent : String

/-- `MAX_CONFIG_BYTES`. -/
def maxConfigBytes : Nat := 16 * 1024

section Methods

variable (C : Config)

/-! ## Documents, provider and receipts -/

/-- `_load_affine_file`. -/
def loadAffineFile (file : AffineFile) : TouchM (Option AffineDocument) := do
  match ← Prog.ofExcept (← op (.read file)) with
  | none => return none
  | some text =>
    let result ← Prog.ofExcept (parseAffineDocument C.floats text file.state file.name)
    return some result

/-- `_atomic_write` of the persisted document. -/
def atomicWrite (text : List Char) : TouchM Unit := do
  if text.length > maxConfigBytes then
    fail (.persistence "CH347 configuration output is too large")
  else Prog.ofExcept (← op (.write .persistent text))

/-- `_atomic_write_runtime` of the effective document. -/
def atomicWriteRuntime (text : List Char) : TouchM Unit := do
  if text.length > maxConfigBytes then
    fail (.persistence "touch affine runtime output is too large")
  else Prog.ofExcept (← op (.write .effective text))

/-- The component as an error detail. -/
def componentDetail : List (String × Value) := [("component", .str C.targetComponent)]

/-- `_active_provider`: the generation and the process of the display provider. -/
def activeProvider : TouchM (Nat × Nat) := do
  match ← op .readOwner with
  | .error _ | .ok none =>
    fail (.unavailable "CH347 display-output owner is unavailable" (componentDetail C))
  | .ok (some owner) =>
    match matchOwner owner with
    | none => fail (.unavailable "CH347 display-output owner token is invalid")
    | some (generation, pid) =>
      let _ ← Prog.ofExcept ((integer (.int generation) "provider generation" 0
        (2 ^ 31 - 1)).mapError .hal)
      let _ ← Prog.ofExcept ((integer (.int pid) "provider pid" 1 (2 ^ 31 - 1)).mapError .hal)
      if ← op (.pidAlive pid) then return (generation, pid)
      else fail (.unavailable "CH347 display-output provider is not running"
        [("pid", .int pid), ("generation", .int generation)])

/-- `_load_applied_affine`: the receipt, if it is the active generation's. -/
def loadAppliedAffine : TouchM (Option AffineDocument) := do
  match ← Prog.ofExcept ((← op .readApplied).mapError .hal) with
  | none => return none
  | some text =>
    let lines := splitlines text
    match lines.head?.bind matchGeneration with
    | none => fail (.provider "touch affine applied receipt is invalid")
    | some generation =>
      -- A receipt counts only for the generation that owns the display now.
      let (activeGeneration, _) ← activeProvider C
      if generation ≠ activeGeneration then
        fail (.provider "touch affine receipt belongs to a stale generation")
      else
        let result ← Prog.ofExcept (parseAffineDocument C.floats (document lines.tail) false
          "touch-affine.applied.env")
        return some result

/-- Whether a receipt carries the revision and the matrix. -/
def receiptMatches (receipt : Option AffineDocument) (revision : Nat) (m : Affine) : Bool :=
  match receipt with
  | none => false
  | some applied => applied.revision == revision && matrixEqual C.floats applied.matrix m

/-- `_affine_applied`. -/
def affineApplied (revision : Nat) (m : Affine) : TouchM Bool := do
  let receipt ← loadAppliedAffine C
  return receiptMatches C receipt revision m

/-- `_runtime_receipts_match`. -/
def runtimeReceiptsMatch : TouchM Bool := do
  let configured ← op .configured
  let affine ← loadAffineFile C .effective
  if !configured then return false
  else
    let others ← op .othersApplied
    match affine with
    | none => return others
    | some affine =>
      let applied ← loadAppliedAffine C
      return others && receiptMatches C applied affine.revision affine.matrix

/-- The details of a failed reload. -/
def reloadDetails (generation pid : Nat) : List (String × Value) :=
  componentDetail C ++ [("generation", .int generation), ("pid", .int pid)]

/-- The loop of `_reload_runtime` with the number of rounds its deadline leaves. -/
def awaitReceipts (details : List (String × Value)) : Nat → TouchM Unit
  | 0 => fail (.unavailable "CH347 configuration was saved but runtime apply timed out" details)
  | rounds + 1 => do
    if ← runtimeReceiptsMatch C then return ()
    else awaitReceipts details rounds

/-- `_reload_runtime`. -/
def reloadRuntime : TouchM Unit := do
  let (generation, pid) ← activeProvider C
  if ← op (.signal pid) then
    let rounds ← op .polls
    awaitReceipts C (reloadDetails C generation pid) rounds
  else fail (.unavailable "CH347 configuration was saved but provider reload failed"
    (reloadDetails C generation pid))

/-- `_apply_affine`. -/
def applyAffine (revision : Nat) (m : Affine) : TouchM Unit := do
  atomicWriteRuntime (affineEffectiveText C.floats revision m)
  reloadRuntime C
  if ← affineApplied C revision m then return ()
  else fail (.provider "touch affine runtime readback did not match the request")

/-! ## The basis and the current calibration -/

/-- `_basis_snapshot`. -/
def basisSnapshot : TouchM Basis := do
  match (← op .loadBasis).basis with
  | none => fail (.unavailable "touch calibration basis is unavailable")
  | some basis => return basis

/-- `_validate_basis`. -/
def validateBasis (value : Value) : Except PyError Basis :=
  match value with
  | .dict members => do
    let names := ["rotation", "width", "height"]
    if members.length ≠ 3 || names.any fun name => (Value.lookup name members).isNone then
      throw (.hal (.validation "basis must contain rotation, width and height"))
    let rotation ← match Value.lookup "rotation" members with
      | some (.str text) =>
        match Rotation.of text with
        | some rotation => pure rotation
        | none => throw (.hal (.validation "basis rotation is invalid"))
      | _ => throw (.hal (.validation "basis rotation is invalid"))
    let width ← (integer ((Value.lookup "width" members).getD .null) "basis width" 1 8192).mapError
      .hal
    let height ← (integer ((Value.lookup "height" members).getD .null) "basis height" 1
      8192).mapError .hal
    return ⟨rotation, width, height⟩
  | _ => throw (.hal (.validation "basis must contain rotation, width and height"))

/-- The answer of `touch_calibration_get`. -/
structure Calibration where
  provider : String
  revision : Nat
  writable : Bool
  matrix : Affine
  basis : Basis
  reason : Option String

/-- `applied` of `touch_calibration_get`: a `HalError` counts as not applied. -/
def effectiveApplied (effective : Option AffineDocument) : TouchM Bool := do
  match effective with
  | none => return false
  | some effective =>
    match ← (affineApplied C effective.revision effective.matrix).attempt with
    | .ok applied => return applied
    | .error (.hal _) => return false
    | .error e => Prog.raise e

/-- Why a calibration cannot be written. -/
def readOnlyReason (persistent effective : Option AffineDocument) (applied : Bool) :
    Option String :=
  if persistent.isNone then some "touch affine state is not provisioned"
  else if effective.isNone then some "CH347 display output is not running"
  else if !applied then some "CH347 touch affine is not applied by the active generation"
  else none

/-- `touch_calibration_get`. -/
def touchCalibrationGet : TouchM Calibration := do
  let persistent ← loadAffineFile C .persistent
  let effective ← loadAffineFile C .effective
  let basis ← basisSnapshot
  let applied ← effectiveApplied C effective
  let shown := effective.or persistent
  return ⟨C.targetComponent, (shown.map AffineDocument.revision).getD 0,
    persistent.isSome && effective.isSome && applied,
    (shown.map AffineDocument.matrix).getD identityAffine, basis,
    readOnlyReason persistent effective applied⟩

/-! ## The preview -/

/-- `_require_preview`. -/
def requirePreview (token : Value) : TouchM Preview := do
  match token with
  | .str text =>
    if text.length < 16 || text.length > 64 || text.toList.any fun c => c.toNat ≥ 128 then
      fail (.validation "preview token is invalid")
    else
      match ← op .slot with
      | none => fail (.conflict "preview token is stale or already consumed")
      | some preview =>
        if preview.token = text then return preview
        else fail (.conflict "preview token is stale or already consumed")
  | _ => fail (.validation "preview token is invalid")

/-- `_restore_preview_locked`. -/
def restorePreviewLocked (preview : Preview) : TouchM Calibration := do
  applyAffine C preview.savedRevision preview.savedMatrix
  op (.clear preview.id)
  touchCalibrationGet C

/-- `try` the apply of a preview, and put the saved matrix back when it fails. -/
def applyPreview (revision : Nat) (m : Affine) (savedRevision : Nat) (savedMatrix : Affine) :
    TouchM Unit := do
  match ← (applyAffine C revision m).attempt with
  | .ok _ => return ()
  -- A HalError is answered with one rollback; anything else is passed on.
  | .error (.hal error) =>
    match ← (applyAffine C savedRevision savedMatrix).attempt with
    | .ok _ => fail error
    | .error (.hal rollback) =>
      fail (.provider "touch preview failed and runtime rollback also failed"
        [("rollback", .str rollback.message)])
    | .error e => Prog.raise e
  | .error e => Prog.raise e

/-- The matrix and the basis a preview request asks for. -/
def previewRequest (request : List (Value × Value)) : TouchM (Affine × Basis) := do
  match (Value.lookup "use_default" request).getD (.bool false) with
  | .bool true =>
    if (Value.lookup "matrix" request).isSome || (Value.lookup "basis" request).isSome then
      fail (.validation "use_default cannot be combined with matrix or basis")
    else
      let basis ← basisSnapshot
      return (identityAffine, basis)
  | .bool false =>
    match Value.lookup "matrix" request, Value.lookup "basis" request with
    | some matrix, some basis =>
      let matrix ← Prog.ofExcept (validatedAffine C.floats matrix)
      let basis ← Prog.ofExcept (validateBasis basis)
      let current ← basisSnapshot
      -- The basis may have changed since the caller measured it.
      if basis = current then return (matrix, basis)
      else fail (.conflict "touch calibration basis changed")
    | _, _ => fail (.validation "preview requires matrix and basis")
  | _ => fail (.validation "use_default must be a boolean")

/-- What a preview request is answered with. -/
structure Ticket where
  token : String
  ttlMs : Int
  revision : Nat

/-- The checks of `touch_calibration_preview`: the current calibration, the
    lifetime, and the matrix and the basis asked for. -/
def previewChecks (request : List (Value × Value)) :
    TouchM (Calibration × Int × Affine × Basis) := do
  if (← op .slot).isSome then
    fail (.conflict "a touch calibration preview is already active")
  else
    let current ← touchCalibrationGet C
    if !current.writable then
      fail (.unavailable (current.reason.getD "touch calibration is read-only"))
    else
      let expected ← Prog.ofExcept ((integer ((Value.lookup "expected_revision" request).getD .null)
        "expected_revision" 0 maxAffineRevision).mapError .hal)
      if expected ≠ current.revision then
        fail (.conflict "touch calibration revision changed"
          [("expected_revision", .int expected), ("revision", .int current.revision)])
      else
        let ttlMs ← Prog.ofExcept ((integer ((Value.lookup "ttl_ms" request).getD .null) "ttl_ms"
          1000 60000).mapError .hal)
        let (matrix, basis) ← previewRequest C request
        -- No revision is left for a preview.
        if current.revision ≥ maxAffineRevision then
          fail (.conflict "touch calibration revision is exhausted")
        else return (current, ttlMs, matrix, basis)

/-- `touch_calibration_preview`. -/
def touchCalibrationPreview (request : List (Value × Value)) : TouchM Ticket := do
  let (current, ttlMs, matrix, basis) ← previewChecks C request
  let revision := current.revision + 1
  applyPreview C revision matrix current.revision current.matrix
  let token ← op .newToken
  let now ← op .clock
  -- The slot is filled before the thread starts, and a failed start leaves it so.
  let id ← op (.install ⟨token, revision, matrix, current.revision, current.matrix, basis,
    C.floats.round (now + C.floats.round (ttlMs / 1000))⟩)
  if ← op (.startWatcher id) then return ⟨token, ttlMs, revision⟩
  else Prog.raise (.exc "RuntimeError" "can't start new thread")

/-- `touch_calibration_confirm`. -/
def touchCalibrationConfirm (token : Value) : TouchM Calibration := do
  let preview ← requirePreview token
  let now ← op .clock
  -- The deadline may pass before the watcher wakes.
  if now ≥ preview.deadline then
    let _ ← restorePreviewLocked C preview
    fail (.conflict "touch calibration preview expired")
  else
    let basis ← basisSnapshot
    if basis ≠ preview.basis then
      let _ ← restorePreviewLocked C preview
      fail (.conflict "touch calibration basis changed; preview was cancelled")
    -- Only what the display has applied is saved.
    else if ← affineApplied C preview.revision preview.matrix then
      atomicWrite (affineStateText C.floats preview.revision preview.matrix
        (some preview.savedMatrix))
      op (.clear preview.id)
      touchCalibrationGet C
    else
      let _ ← restorePreviewLocked C preview
      fail (.provider "touch preview is no longer effective")

/-- `touch_calibration_cancel`. -/
def touchCalibrationCancel (token : Value) : TouchM Calibration := do
  let preview ← requirePreview token
  restorePreviewLocked C preview

/-- `touch_calibration_undo`. -/
def touchCalibrationUndo : TouchM Calibration := do
  if (← op .slot).isSome then
    fail (.conflict "cancel or confirm the active preview before undo")
  else
    match ← loadAffineFile C .persistent with
    | some ⟨revision, matrix, some previous⟩ =>
      if revision ≥ maxAffineRevision then
        fail (.conflict "touch calibration revision is exhausted")
      else
        applyAffine C (revision + 1) previous
        match ← (atomicWrite (affineStateText C.floats (revision + 1) previous
            (some matrix))).attempt with
        | .ok _ => touchCalibrationGet C
        | .error (.hal error) =>
          applyAffine C revision matrix
          fail error
        | .error e => Prog.raise e
    | _ => fail (.conflict "no previous touch calibration is available")

/-- `recover_stale_preview`. -/
def recoverStalePreview : TouchM Unit := do
  let persistent ← loadAffineFile C .persistent
  let effective ← loadAffineFile C .effective
  match persistent, effective with
  | some persistent, some effective =>
    if persistent.revision ≠ effective.revision ∨
        matrixEqual C.floats persistent.matrix effective.matrix = false then
      applyAffine C persistent.revision persistent.matrix
    else return ()
  | _, _ => return ()

/-- Restore a preview and let a `HalError` only be printed. -/
def restoreQuietly (preview : Preview) : TouchM Unit := do
  match ← (restorePreviewLocked C preview).attempt with
  | .ok _ | .error (.hal _) => return ()
  | .error e => Prog.raise e

/-- `close`. -/
def close : TouchM Unit := do
  match ← op .slot with
  | none => return ()
  | some preview => restoreQuietly C preview

/-- `basis_changed` of the watcher: a `HalError` counts as changed. -/
def basisChanged (preview : Preview) : TouchM Bool := do
  match ← basisSnapshot.attempt with
  | .ok basis => return basis ≠ preview.basis
  | .error (.hal _) => return true
  | .error e => Prog.raise e

/-- One round of `_preview_watch`, the thread of the watcher with the given place. -/
def previewWatch (id : Nat) : TouchM Unit := do
  let watcher ← op (.wake id)
  if watcher.stop then op (.endWatcher id)
  else
    match ← op .slot with
    | none => op (.endWatcher id)
    | some preview =>
      if preview.token ≠ watcher.token then op (.endWatcher id)
      else
        let now ← op .clock
        let changed ← basisChanged preview
        if now ≥ preview.deadline || changed then
          -- the thread ends here, whether the rollback succeeded or not
          (restoreQuietly C preview).withCleanup (op (.endWatcher id))
        else return ()

/-! ## Settings -/

/-- What a `set_state` request changes of the settings the calibration depends on. -/
structure Changes where
  calibration : Bool
  rotation : Bool
  restart : Bool

/-- `if self._preview is not None: self._restore_preview_locked(self._preview)`. -/
def restoreActive : TouchM Unit := do
  match ← op .slot with
  | none => return ()
  | some preview =>
    let _ ← restorePreviewLocked C preview
    return ()

/-- A part of `set_state` that does not touch the calibration. -/
def stage (part : Stage) : TouchM Unit := do
  Prog.ofExcept (← op (.external part))

/-- The calibration or the rotation branch of `set_state`. -/
def settle (changed : Bool) (part : Stage) : TouchM Unit := do
  if changed then
    restoreActive C
    stage part
  else return ()

/-- The restart or the reload at the end of `set_state`. -/
def reapply (changes : Changes) (hot ready : Bool) : TouchM Unit := do
  if changes.restart || (changes.calibration && ready) then stage .restart
  else if (hot || changes.rotation) && ready then reloadRuntime C
  else return ()

/-- `set_state`: `settings` answers whether a hot-reloaded setting changes and
    whether the component is ready. -/
def setState (changes : Changes) : TouchM Unit := do
  let (hot, ready) ← Prog.ofExcept (← op .settings)
  settle C changes.calibration .calibration
  settle C changes.rotation .rotation
  stage .documents
  reapply C changes hot ready
  stage .state

/-! ## Calls -/

/-- What runs under the lock of the backend. -/
inductive Call where
  | recover
  | get
  | preview (request : List (Value × Value))
  | confirm (token : Value)
  | cancel (token : Value)
  | undo
  | setState (changes : Changes)
  | watch (id : Nat)
  | close

/-- The method of a call. -/
def program : Call → TouchM Unit
  | .recover => recoverStalePreview C
  | .get => do let _ ← touchCalibrationGet C
  | .preview request => do let _ ← touchCalibrationPreview C request
  | .confirm token => do let _ ← touchCalibrationConfirm C token
  | .cancel token => do let _ ← touchCalibrationCancel C token
  | .undo => do let _ ← touchCalibrationUndo C
  | .setState changes => setState C changes
  | .watch id => previewWatch C id
  | .close => close C

end Methods

end MsysHal.Ch347

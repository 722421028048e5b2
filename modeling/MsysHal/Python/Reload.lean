import MsysHal.ForStd.Prog
import MsysHal.Python.Touch

/-!
# The hot reload of the CH347 backend

`_reload_runtime` of `msys_hal/ch347.py` with everything it reads, one file at a
time. The display provider runs at the same time: before each step of the backend
it may have replaced the owner token and rewritten any receipt. `reloadMachine`
is the backend's view of the files; its inputs are the turns of the provider.
-/

namespace MsysHal.Ch347.Reload

open Python (Value)
open Interleave (Sig Prog Machine)

/-! ## Files -/

/-- The receipts of the display provider. -/
inductive Receipt where
  | display
  | overlay
  | cursor
  | rotation
  | affine
deriving DecidableEq, Repr

/-- The configuration the backend compares the receipts with. -/
inductive Setting where
  | fps
  | overlay
  | cursor
  | rotation
  | affine
deriving DecidableEq, Repr

/-- The files that a reload reads. -/
inductive RuntimeFile where
  | owner
  | setting (setting : Setting)
  | applied (receipt : Receipt)
deriving DecidableEq, Repr

/-- The name of a file. -/
def RuntimeFile.name : RuntimeFile → String
  | .owner => "msys.provider.owner"
  | .setting .fps => "fps.env"
  | .setting .overlay => "debug_overlay.env"
  | .setting .cursor => "cursor.env"
  | .setting .rotation => "rotation.env"
  | .setting .affine => AffineFile.effective.name
  | .applied .display => "display-config.applied.env"
  | .applied .overlay => "debug-overlay.applied.env"
  | .applied .cursor => "cursor.applied.env"
  | .applied .rotation => "rotation.applied.env"
  | .applied .affine => "touch-affine.applied.env"

/-- How `_read_regular` can fail; `cause` is the class of the `OSError`. -/
inductive ReadFault where
  | uninspected (cause : String)
  | irregular
  | unreadable (cause : String)
  | oversized
  | encoded

/-- The `ProviderError` of a failed read. -/
def ReadFault.error (file : RuntimeFile) : ReadFault → HalError
  | .uninspected cause => .provider "CH347 configuration cannot be inspected"
    [("file", .str file.name), ("cause", .str cause)]
  | .irregular => .provider "CH347 configuration must be a regular non-symlink file"
    [("file", .str file.name)]
  | .unreadable cause => .provider "CH347 configuration cannot be read"
    [("file", .str file.name), ("cause", .str cause)]
  | .oversized => .provider "CH347 configuration is oversized or binary" [("file", .str file.name)]
  | .encoded => .provider "CH347 configuration is not ASCII" [("file", .str file.name)]

/-! ## Steps -/

/-- The steps of a reload. -/
inductive ReloadOp where
  | read (file : RuntimeFile)
  | pidAlive (pid : Nat)
  | signal (pid : Nat)
  | polls
deriving DecidableEq

/-- The answer of a step; `polls` tells how many rounds the deadline leaves. -/
abbrev ReloadOp.Ret : ReloadOp → Type
  | .read _ => Except HalError (Option (List Char))
  | .pidAlive _ => Bool
  | .signal _ => Bool
  | .polls => Nat

/-- The operations and their answers. -/
abbrev reloadSig : Sig := ⟨ReloadOp, ReloadOp.Ret⟩

/-- The texts of the files. -/
abbrev Files := RuntimeFile → Option (List Char)

/-- A step of the display provider: a new owner token or another receipt. -/
inductive ProviderStep where
  | own (token : Option (List Char))
  | rewrite (receipt : Receipt) (text : Option (List Char))

/-- What a step of the provider does to the files. -/
def ProviderStep.apply (files : Files) : ProviderStep → Files
  | .own token => Function.update files .owner token
  | .rewrite receipt text => Function.update files (.applied receipt) text

/-- What happens around a step of the backend: the steps the provider makes before
    it, whether a read fails, and what the system answers. -/
structure Turn where
  steps : List ProviderStep := []
  fault : Option ReadFault := none
  alive : Nat → Bool := fun _ => true
  delivered : Nat → Bool := fun _ => true
  rounds : Nat := 1

/-- A step of the backend on the files the provider has left. -/
def reloadExec : (o : ReloadOp) → Turn → Files → Option (o.Ret × Files)
  | .read file, turn, files =>
    let files := turn.steps.foldl ProviderStep.apply files
    match turn.fault with
    | some fault => some (.error (fault.error file), files)
    | none => some (.ok (files file), files)
  | .pidAlive pid, turn, files => some (turn.alive pid, turn.steps.foldl ProviderStep.apply files)
  | .signal pid, turn, files => some (turn.delivered pid, turn.steps.foldl ProviderStep.apply files)
  | .polls, turn, files => some (turn.rounds, turn.steps.foldl ProviderStep.apply files)

/-- The backend beside the provider. -/
def reloadMachine : Machine reloadSig Files Turn where
  exec := reloadExec

/-- A method of the backend. -/
abbrev ReloadM := Prog reloadSig PyError

/-- One step. -/
def op (o : ReloadOp) : ReloadM o.Ret := Prog.perform (S := reloadSig) o

/-- Raise a `HalError`. -/
def fail {α : Type} (error : HalError) : ReloadM α := Prog.raise (.hal error)

/-! ## Assignments -/

/-- `FPS_KEYS`. -/
def fpsKeys : List (String × String) :=
  [("DEBUG", "debug_enabled"), ("FPS", "fps"), ("XCAP_MAX_FPS", "max_fps"),
    ("XCAP_IDLE_FPS", "idle_fps")]

/-- `DEBUG_OVERLAY_KEYS`. -/
def debugOverlayKeys : List (String × String) :=
  [("CH347_DEBUG_OVERLAY", "enabled"), ("CH347_DEBUG_OVERLAY_ALPHA", "alpha"),
    ("CH347_DEBUG_OVERLAY_SCALE", "scale"), ("CH347_DEBUG_OVERLAY_ITEMS", "items_mask"),
    ("CH347_DEBUG_OVERLAY_INTERVAL_MS", "interval_ms")]

/-- `CURSOR_KEYS`. -/
def cursorKeys : List (String × String) := [("CH347_CURSOR", "enabled")]

/-- The keys of a receipt: those of its setting and the generation. -/
def appliedKeys (keys : List (String × String)) : List (String × String) :=
  keys ++ [("MSYS_GENERATION", "provider_generation")]

/-- A key `[A-Z][A-Z0-9_]*`. -/
def isAssignmentKey : List Char → Bool
  | [] => false
  | c :: rest => c.isUpper && rest.all fun c => c.isUpper || c.isDigit || c == '_'

/-- `ASSIGNMENT_RE`, `([A-Z][A-Z0-9_]*)=([0-9]{1,10})`. -/
def matchAssignment (line : List Char) : Option (String × Nat) :=
  let key := line.takeWhile (· != '=')
  let value := (line.dropWhile (· != '=')).tail
  if line.contains '=' && isAssignmentKey key && isNumeral 10 value then
    some (String.ofList key, Nat.ofDigitChars 10 value 0)
  else none

/-- The loop of `_assignments` over the lines from a given number on. -/
def assignmentsFrom (mapping : List (String × String)) (filename : String) :
    Nat → List (List Char) → List (String × Nat) → Except HalError (List (String × Nat))
  | _, [], values => .ok values
  | number, raw :: rest, values =>
    let line := strip raw
    let details : List (String × Value) := [("file", .str filename), ("line", .int number)]
    if line.isEmpty || line.head? == some '#' then
      assignmentsFrom mapping filename (number + 1) rest values
    else
      match (matchAssignment line).bind fun p => (mapping.lookup p.1).map fun field =>
        (field, p.2) with
      | none => .error (.provider "CH347 configuration contains an unsupported assignment" details)
      | some (field, value) =>
        if (values.lookup field).isSome then
          .error (.provider "CH347 configuration contains a duplicate assignment" details)
        else assignmentsFrom mapping filename (number + 1) rest (values ++ [(field, value)])

/-- `_assignments`. -/
def assignments (text : List Char) (mapping : List (String × String)) (file : RuntimeFile) :
    Except HalError (List (String × Nat)) :=
  assignmentsFrom mapping file.name 1 (splitlines text) []

/-- The fields that are missing, sorted. -/
def missingFields (fields : List String) (raw : List (String × Nat)) : List String :=
  sortStrings (fields.filter fun field => (raw.lookup field).isNone)

/-- A field that has been found. -/
def field (raw : List (String × Nat)) (name : String) : Nat := (raw.lookup name).getD 0

/-- Raise when a field is missing. -/
def requireFields (fields : List String) (raw : List (String × Nat)) (complaint : String) :
    Except HalError Unit :=
  let missing := missingFields fields raw
  if missing.isEmpty then .ok ()
  else .error (.provider complaint [("fields", .list (missing.map .str))])

/-! ## Settings -/

/-- The frame rates, and whether the sink logs. -/
structure Fps where
  debugEnabled : Bool
  fps : Int
  maxFps : Int
  idleFps : Int
deriving DecidableEq, Repr

/-- `FPS_DEFAULTS`. -/
def fpsDefaults : Fps := ⟨false, 60, 60, 0⟩

/-- `_load_fps` when the file has been read. -/
def parseFps (text : List Char) : Except HalError Fps := do
  let raw ← assignments text fpsKeys (.setting .fps)
  requireFields ["fps", "max_fps", "idle_fps"] raw "CH347 FPS configuration is incomplete"
  let rawDebug := (raw.lookup "debug_enabled").getD 0
  if rawDebug > 1 then throw (.provider "DEBUG must be 0 or 1")
  let fps ← integer (.int (field raw "fps")) "FPS" 1 240
  let maximum ← integer (.int (field raw "max_fps")) "XCAP_MAX_FPS" 1 240
  let idle ← integer (.int (field raw "idle_fps")) "XCAP_IDLE_FPS" 0 60
  if fps ≠ maximum then throw (.provider "FPS and XCAP_MAX_FPS must match")
  if idle > fps then throw (.provider "XCAP_IDLE_FPS must not exceed FPS")
  return ⟨rawDebug == 1, fps, maximum, idle⟩

/-- `DEBUG_OVERLAY_ITEM_BITS`. -/
def debugOverlayItemBits : List (String × Nat) :=
  [("fps", 1), ("dirty", 2), ("bytes", 4), ("bbox", 8), ("memory", 16), ("cpu", 32)]

/-- The items of a mask. -/
def maskItems (mask : Int) : List String :=
  (debugOverlayItemBits.filter fun item => mask.toNat &&& item.2 != 0).map Prod.fst

/-- The debug overlay. -/
structure Overlay where
  enabled : Bool
  alpha : Int
  scale : Int
  items : List String
  intervalMs : Int
deriving DecidableEq, Repr

/-- `_validated_debug_overlay` of an object with its five fields, whose `enabled` is
    a boolean. -/
def validatedDebugOverlay (value : Overlay) : Except HalError Overlay := do
  let alpha ← integer (.int value.alpha) "debug overlay alpha" 0 255
  let scale ← integer (.int value.scale) "debug overlay scale" 1 2
  let interval ← integer (.int value.intervalMs) "debug overlay interval_ms" 250 5000
  if value.items.isEmpty || !value.items.Nodup ||
      value.items.any fun item => (debugOverlayItemBits.lookup item).isNone then
    throw (.validation "debug overlay items are invalid")
  return ⟨value.enabled, alpha, scale,
    (debugOverlayItemBits.map Prod.fst).filter value.items.contains, interval⟩

/-- `_load_debug_overlay` when the file has been read. -/
def parseDebugOverlay (text : List Char) : Except HalError Overlay := do
  let raw ← assignments text debugOverlayKeys (.setting .overlay)
  requireFields (debugOverlayKeys.map Prod.snd) raw
    "CH347 debug overlay configuration is incomplete"
  if field raw "enabled" > 1 then
    throw (.provider "CH347 debug overlay enabled must be 0 or 1")
  let mask ← integer (.int (field raw "items_mask")) "debug overlay items" 1 63
  validatedDebugOverlay ⟨field raw "enabled" == 1, field raw "alpha", field raw "scale",
    maskItems mask, field raw "interval_ms"⟩

/-- `_load_cursor` when the file has been read. -/
def parseCursor (text : List Char) : Except HalError Bool := do
  let raw ← assignments text cursorKeys (.setting .cursor)
  match raw.lookup "enabled" with
  | some 0 => return false
  | some 1 => return true
  | _ => throw (.provider "CH347 cursor configuration must be 0 or 1")

/-- `ROTATION_RE`, `CH347_DISPLAY_ROTATION=(normal|right|left|inverted)`. -/
def matchRotation (line : List Char) : Option Rotation :=
  let mark := "CH347_DISPLAY_ROTATION=".toList
  if mark.isPrefixOf line then Rotation.of (String.ofList (line.drop mark.length)) else none

/-- `_load_rotation` when the file has been read. -/
def parseRotation (text : List Char) : Except HalError Rotation :=
  let values := ((splitlines text).map strip).filter fun line =>
    !line.isEmpty && !(line.head? == some '#')
  match values with
  | [value] =>
    match matchRotation value with
    | some rotation => .ok rotation
    | none => .error (.provider "CH347 rotation configuration contains an unsupported value")
  | _ => .error (.provider "CH347 rotation configuration is invalid")

/-- `_load_fps`. -/
def loadFps : ReloadM (Fps × Option String) := do
  match ← op (.read (.setting .fps)) with
  | .error e => return (fpsDefaults, some e.message)
  | .ok none => return (fpsDefaults, some "fps.env is missing")
  | .ok (some text) =>
    match parseFps text with
    | .ok fps => return (fps, none)
    | .error e => return (fpsDefaults, some e.message)

/-- An optional setting: absent, or as its reader gives it. -/
def loadOptional {α : Type} (setting : Setting) (parse : List Char → Except HalError α) :
    ReloadM (Option α × Option String) := do
  match ← op (.read (.setting setting)) with
  | .error e => return (none, some e.message)
  | .ok none => return (none, none)
  | .ok (some text) =>
    match parse text with
    | .ok value => return (some value, none)
    | .error e => return (none, some e.message)

/-- `_load_debug_overlay`. -/
def loadDebugOverlay : ReloadM (Option Overlay × Option String) :=
  loadOptional .overlay parseDebugOverlay

/-- `_load_cursor`. -/
def loadCursor : ReloadM (Option Bool × Option String) := loadOptional .cursor parseCursor

/-- `_load_rotation`. -/
def loadRotation : ReloadM (Rotation × Option String × Bool) := do
  match ← op (.read (.setting .rotation)) with
  | .error e => return (.normal, some e.message, true)
  | .ok none => return (.normal, none, false)
  | .ok (some text) =>
    match parseRotation text with
    | .ok rotation => return (rotation, none, true)
    | .error e => return (.normal, some e.message, true)

/-- `_load_affine_file` of the effective document. -/
def loadAffineFile (F : Floats) : ReloadM (Option AffineDocument) := do
  match ← Prog.ofExcept ((← op (.read (.setting .affine))).mapError .hal) with
  | none => return none
  | some text =>
    let result ← Prog.ofExcept (parseAffineDocument F text false AffineFile.effective.name)
    return some result

/-! ## The provider and its receipts -/

/-- `_active_provider`: the generation and the process of the display provider. -/
def activeProvider (component : String) : ReloadM (Nat × Nat) := do
  match ← op (.read .owner) with
  | .error _ | .ok none =>
    fail (.unavailable "CH347 display-output owner is unavailable" [("component", .str component)])
  | .ok (some owner) =>
    match matchOwner owner with
    | none => fail (.unavailable "CH347 display-output owner token is invalid")
    | some (generation, pid) =>
      let _ ← Prog.ofExcept ((integer (.int generation) "provider generation" 0
        (2 ^ 31 - 1)).mapError .hal)
      let _ ← Prog.ofExcept ((integer (.int pid) "provider pid" 1 (2 ^ 31 - 1)).mapError .hal)
      if ← op (.pidAlive pid) then return (generation, pid)
      else fail (.unavailable "CH347 display-output provider is not running"
        [("pid", .int pid), ("generation", .int generation)])

/-- The generation of an owner token, `([0-9]{1,10}):[0-9]{1,10}:[0-9]{1,12}\n?`. -/
def ownerGeneration (owner : List Char) : Option Nat := (matchOwner owner).map Prod.fst

/-- A receipt: what the provider has applied, and its generation. -/
structure Applied (α : Type) where
  value : α
  generation : Int

/-- The generation field of a receipt. -/
def receiptGeneration (raw : List (String × Nat)) : Except HalError Int :=
  integer (.int (field raw "provider_generation")) "provider generation" 0 (2 ^ 31 - 1)

/-- Raise unless the owner token is of the generation. -/
def checkOwner (owner : List Char) (generation : Int) (complaint : String) : Except HalError Unit :=
  if (ownerGeneration owner).map (fun n : Nat => (n : Int)) = some generation then .ok ()
  else .error (.provider complaint)

/-- `_load_applied_display_config` when the receipt and the owner have been read. -/
def parseAppliedDisplay (text owner : List Char) : Except HalError (Applied Fps) := do
  let raw ← assignments text (appliedKeys fpsKeys) (.applied .display)
  requireFields ((appliedKeys fpsKeys).map Prod.snd) raw
    "CH347 applied display configuration is incomplete"
  if field raw "debug_enabled" > 1 then throw (.provider "applied DEBUG must be 0 or 1")
  let fps ← integer (.int (field raw "fps")) "applied FPS" 1 240
  let maximum ← integer (.int (field raw "max_fps")) "applied XCAP_MAX_FPS" 1 240
  let idle ← integer (.int (field raw "idle_fps")) "applied XCAP_IDLE_FPS" 0 60
  let generation ← receiptGeneration raw
  if fps ≠ maximum || idle > fps then
    throw (.provider "applied CH347 FPS configuration is inconsistent")
  checkOwner owner generation "CH347 runtime receipt does not belong to the active generation"
  return ⟨⟨field raw "debug_enabled" == 1, fps, maximum, idle⟩, generation⟩

/-- `_load_applied_debug_overlay` when the receipt and the owner have been read. -/
def parseAppliedOverlay (text owner : List Char) : Except HalError (Applied Overlay) := do
  let raw ← assignments text (appliedKeys debugOverlayKeys) (.applied .overlay)
  requireFields ((appliedKeys debugOverlayKeys).map Prod.snd) raw
    "CH347 applied debug overlay configuration is incomplete"
  if field raw "enabled" > 1 then throw (.provider "applied debug overlay enabled must be 0 or 1")
  let generation ← receiptGeneration raw
  checkOwner owner generation "CH347 overlay receipt does not belong to the active generation"
  let mask ← integer (.int (field raw "items_mask")) "debug overlay items" 1 63
  let overlay ← validatedDebugOverlay ⟨field raw "enabled" == 1, field raw "alpha",
    field raw "scale", maskItems mask, field raw "interval_ms"⟩
  return ⟨overlay, generation⟩

/-- `_load_applied_cursor` when the receipt and the owner have been read. -/
def parseAppliedCursor (text owner : List Char) : Except HalError (Applied Bool) := do
  let raw ← assignments text (appliedKeys cursorKeys) (.applied .cursor)
  if (raw.lookup "enabled").isNone || (raw.lookup "provider_generation").isNone then
    throw (.provider "CH347 applied cursor configuration is incomplete")
  if field raw "enabled" > 1 then throw (.provider "applied CH347 cursor must be 0 or 1")
  let generation ← receiptGeneration raw
  checkOwner owner generation "CH347 cursor receipt does not belong to the active generation"
  return ⟨field raw "enabled" == 1, generation⟩

/-- `APPLIED_ROTATION_RE`, `MSYS_GENERATION=([0-9]{1,10})\nCH347_DISPLAY_ROTATION=(…)\n?`. -/
def matchAppliedRotation (text : List Char) : Option (Nat × Rotation) :=
  match (chomp text).splitOn '\n' with
  | [first, second] =>
    match matchGeneration first, matchRotation second with
    | some generation, some rotation => some (generation, rotation)
    | _, _ => none
  | _ => none

/-- A receipt that is read with the owner token after it. -/
def loadApplied {α : Type} (receipt : Receipt) (missing : String)
    (parse : List Char → List Char → Except HalError (Applied α)) :
    ReloadM (Option (Applied α) × Option String) := do
  match ← op (.read (.applied receipt)) with
  | .error e => return (none, some e.message)
  | .ok text =>
    match ← op (.read .owner) with
    | .error e => return (none, some e.message)
    | .ok owner =>
      match text, owner with
      | some text, some owner =>
        match parse text owner with
        | .ok applied => return (some applied, none)
        | .error e => return (none, some e.message)
      | _, _ => return (none, some missing)

/-- `_load_applied_display_config`. -/
def loadAppliedDisplayConfig : ReloadM (Option (Applied Fps) × Option String) :=
  loadApplied .display "provider-runtime-receipt-missing" parseAppliedDisplay

/-- `_load_applied_debug_overlay`. -/
def loadAppliedDebugOverlay : ReloadM (Option (Applied Overlay) × Option String) :=
  loadApplied .overlay "provider-overlay-receipt-missing" parseAppliedOverlay

/-- `_load_applied_cursor`. -/
def loadAppliedCursor : ReloadM (Option (Applied Bool) × Option String) :=
  loadApplied .cursor "provider-cursor-receipt-missing" parseAppliedCursor

/-- `_load_applied_rotation` when the receipt and the active provider are known. -/
def parseAppliedRotation (text : List Char) (active : Nat) : Except HalError (Applied Rotation) :=
  match matchAppliedRotation text with
  | none => .error (.provider "CH347 applied rotation configuration is invalid")
  | some (generation, rotation) => do
    let generation ← integer (.int generation) "provider generation" 0 (2 ^ 31 - 1)
    if generation ≠ active then
      throw (.provider "CH347 rotation receipt does not belong to the active generation")
    return ⟨rotation, generation⟩

/-- `_load_applied_rotation`. -/
def loadAppliedRotation (component : String) :
    ReloadM (Option (Applied Rotation) × Option String) := do
  match ← op (.read (.applied .rotation)) with
  | .error e => return (none, some e.message)
  | .ok text =>
    match ← (activeProvider component).attempt with
    | .error (.hal e) => return (none, some e.message)
    | .error e => Prog.raise e
    | .ok (active, _) =>
      match text with
      | none => return (none, some "provider-rotation-receipt-missing")
      | some text =>
        match parseAppliedRotation text active with
        | .ok applied => return (some applied, none)
        | .error e => return (none, some e.message)

/-- `_load_applied_affine`. -/
def loadAppliedAffine (C : Config) : ReloadM (Option AffineDocument) := do
  match ← Prog.ofExcept ((← op (.read (.applied .affine))).mapError .hal) with
  | none => return none
  | some text =>
    let lines := splitlines text
    match lines.head?.bind matchGeneration with
    | none => fail (.provider "touch affine applied receipt is invalid")
    | some generation =>
      let (activeGeneration, _) ← activeProvider C.targetComponent
      if generation ≠ activeGeneration then
        fail (.provider "touch affine receipt belongs to a stale generation")
      else
        let result ← Prog.ofExcept (parseAffineDocument C.floats (document lines.tail) false
          (RuntimeFile.applied .affine).name)
        return some result

/-! ## The reload -/

/-- The settings of a round, when all of them are there. -/
structure Configured where
  fps : Fps
  overlay : Overlay
  cursor : Bool
  rotation : Rotation
  affine : Option AffineDocument

/-- The first half of `_runtime_receipts_match`: the settings, or `none` when one of
    them is invalid or missing. -/
def loadConfigured (F : Floats) : ReloadM (Option Configured) := do
  let (fps, fpsError) ← loadFps
  let (overlay, overlayError) ← loadDebugOverlay
  let (cursor, cursorError) ← loadCursor
  let (rotation, rotationError, provisioned) ← loadRotation
  let affine ← loadAffineFile F
  if fpsError.isSome || overlayError.isSome || cursorError.isSome || rotationError.isSome then
    return none
  else
    match overlay, cursor with
    | some overlay, some cursor =>
      if provisioned then return some ⟨fps, overlay, cursor, rotation, affine⟩ else return none
    | _, _ => return none

/-- Whether a receipt carries the setting. -/
def carries {α : Type} [DecidableEq α] (applied : Option (Applied α)) (value : α) : Bool :=
  match applied with
  | none => false
  | some applied => applied.value = value

/-- The second half of `_runtime_receipts_match`: the receipts against the settings. -/
def compareReceipts (C : Config) (configured : Configured) : ReloadM Bool := do
  let (fps, _) ← loadAppliedDisplayConfig
  let (overlay, _) ← loadAppliedDebugOverlay
  let (cursor, _) ← loadAppliedCursor
  let (rotation, _) ← loadAppliedRotation C.targetComponent
  let others := carries fps configured.fps && carries overlay configured.overlay &&
    carries cursor configured.cursor && carries rotation configured.rotation
  match configured.affine with
  | none => return others
  | some affine =>
    let applied ← loadAppliedAffine C
    return others && receiptMatches C applied affine.revision affine.matrix

/-- `_runtime_receipts_match`. -/
def runtimeReceiptsMatch (C : Config) : ReloadM Bool := do
  match ← loadConfigured C.floats with
  | none => return false
  | some configured => compareReceipts C configured

/-- The loop of `_reload_runtime` with the number of rounds its deadline leaves. -/
def awaitReceipts (C : Config) (details : List (String × Value)) : Nat → ReloadM Unit
  | 0 => fail (.unavailable "CH347 configuration was saved but runtime apply timed out" details)
  | rounds + 1 => do
    if ← runtimeReceiptsMatch C then return ()
    else awaitReceipts C details rounds

/-- `_reload_runtime`. -/
def reloadRuntime (C : Config) : ReloadM Unit := do
  let (generation, pid) ← activeProvider C.targetComponent
  if ← op (.signal pid) then
    let rounds ← op .polls
    awaitReceipts C (reloadDetails C generation pid) rounds
  else fail (.unavailable "CH347 configuration was saved but provider reload failed"
    (reloadDetails C generation pid))

end MsysHal.Ch347.Reload

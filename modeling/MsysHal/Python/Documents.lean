import MsysHal.ForStd.Dict
import MsysHal.Python.Reload

/-!
# The configuration documents of the CH347 backend

What `set_state` of `msys_hal/ch347.py` writes to the configuration files: the
validators of the values, the writers, and the reader of the calibration. The other
readers are in `MsysHal.Python.Reload`.
-/

namespace MsysHal.Ch347.Documents

open Python (Value intText)
open Reload

/-! ## Files -/

/-- The bytes `_atomic_write` puts into a file. -/
def encodeConfig (content : List Char) : Except PyError (List UInt8) :=
  if content.any fun c => c.toNat ≥ 128 then
    .error (.exc "UnicodeEncodeError" "ordinal not in range(128)")
  else if content.length > maxConfigBytes then
    .error (.hal (.persistence "CH347 configuration output is too large"))
  else .ok (content.map fun c => c.toNat.toUInt8)

/-- What `_read_regular` makes of the bytes of a file. -/
def decodeConfig (data : List UInt8) : Except ReadFault (List Char) :=
  if data.length > maxConfigBytes || data.contains 0 then .error .oversized
  else if data.any (128 ≤ ·) then .error .encoded
  else .ok (data.map fun b => Char.ofNat b.toNat)

/-- `int(flag)`. -/
def flagInt (flag : Bool) : Int := if flag then 1 else 0

/-- The line of an assignment. -/
def settingLine (key : String) (n : Int) : List Char := key.toList ++ '=' :: intText n

/-! ## Frame rates -/

/-- The checks of `set_state` on the frame rates. -/
def validatedFps (debugEnabled fps idleFps : Value) : Except HalError (Bool × Int × Int) := do
  let debugEnabled ← match debugEnabled with
    | .bool b => pure b
    | _ => throw (.validation "debug_enabled must be a boolean")
  let fps ← integer fps "fps" 1 240
  let idleFps ← integer idleFps "idle_fps" 0 60
  if idleFps > fps then throw (.validation "idle_fps must not exceed fps")
  return (debugEnabled, fps, idleFps)

/-- `_write_fps`. -/
def writeFps (debugEnabled : Bool) (fps idleFps : Int) : List Char :=
  document [settingLine "DEBUG" (flagInt debugEnabled), settingLine "FPS" fps,
    settingLine "XCAP_MAX_FPS" fps, settingLine "XCAP_IDLE_FPS" idleFps]

/-! ## The debug overlay -/

/-- The fields of an overlay. -/
def overlayFields : List String := ["enabled", "alpha", "scale", "items", "interval_ms"]

/-- The items of a list when all of them are strings. -/
def stringItems : Value → Option (List String)
  | .list items => items.mapM fun item => match item with
    | .str s => some s
    | _ => none
  | _ => none

/-- The value of a field that is there. -/
def member (members : List (Value × Value)) (name : String) : Value :=
  (Value.lookup name members).getD .null

/-- `_validated_debug_overlay`. -/
def validatedDebugOverlay (value : Value) : Except HalError Overlay := do
  let members ← match value with
    | .dict members => pure members
    | _ => throw (.validation "debug overlay must be an object")
  let unknown := sortStrings
    ((members.map (keyName ∘ Prod.fst)).filter (!overlayFields.contains ·))
  let missing := sortStrings
    (overlayFields.filter fun name => (Value.lookup name members).isNone)
  if !unknown.isEmpty || !missing.isEmpty then
    throw (.validation "debug overlay fields are invalid"
      [("unknown", .list (unknown.map .str)), ("missing", .list (missing.map .str))])
  let enabled ← match member members "enabled" with
    | .bool b => pure b
    | _ => throw (.validation "debug overlay enabled must be a boolean")
  let alpha ← integer (member members "alpha") "debug overlay alpha" 0 255
  let scale ← integer (member members "scale") "debug overlay scale" 1 2
  let interval ← integer (member members "interval_ms") "debug overlay interval_ms" 250 5000
  match stringItems (member members "items") with
  | none => throw (.validation "debug overlay items are invalid")
  | some items =>
    if items.isEmpty || !items.Nodup ||
        items.any fun item => (debugOverlayItemBits.lookup item).isNone then
      throw (.validation "debug overlay items are invalid")
    return ⟨enabled, alpha, scale, (debugOverlayItemBits.map Prod.fst).filter items.contains,
      interval⟩

/-- The bits of the items of an overlay. -/
def itemsMask (items : List String) : Nat :=
  (items.map fun item => (debugOverlayItemBits.lookup item).getD 0).sum

/-- The text of an overlay. -/
def overlayText (selected : Overlay) : List Char :=
  document [settingLine "CH347_DEBUG_OVERLAY" (flagInt selected.enabled),
    settingLine "CH347_DEBUG_OVERLAY_ALPHA" selected.alpha,
    settingLine "CH347_DEBUG_OVERLAY_SCALE" selected.scale,
    settingLine "CH347_DEBUG_OVERLAY_ITEMS" (itemsMask selected.items),
    settingLine "CH347_DEBUG_OVERLAY_INTERVAL_MS" selected.intervalMs]

/-- `_write_debug_overlay`. -/
def writeDebugOverlay (overlay : Value) : Except HalError (List Char) :=
  (validatedDebugOverlay overlay).map overlayText

/-! ## Cursor and rotation -/

/-- `_write_cursor`. -/
def writeCursor (enabled : Value) : Except HalError (List Char) :=
  match enabled with
  | .bool b => .ok (document [settingLine "CH347_CURSOR" (flagInt b)])
  | _ => .error (.validation "touch_cursor_enabled must be a boolean")

/-- `_write_rotation`. -/
def writeRotation (rotation : Value) : Except HalError (List Char) :=
  let complaint : HalError :=
    .validation "physical_rotation must be normal, right, left or inverted"
  match rotation with
  | .str s =>
    if (Rotation.of s).isSome then .ok (document ["CH347_DISPLAY_ROTATION=".toList ++ s.toList])
    else .error complaint
  | _ => .error complaint

/-! ## The touch calibration -/

/-- A calibration as the backend keeps it. -/
abbrev Calibration := Dict String Value

/-- `CALIBRATION_KEYS`. -/
def calibrationKeys : List (String × String) :=
  [("CH347_TOUCH", "enabled"), ("CH347_TOUCH_SWAP_XY", "swap_xy"),
    ("CH347_TOUCH_INVERT_X", "invert_x"), ("CH347_TOUCH_INVERT_Y", "invert_y"),
    ("CH347_TOUCH_X_MIN", "x_min"), ("CH347_TOUCH_X_MAX", "x_max"), ("CH347_TOUCH_Y_MIN", "y_min"),
    ("CH347_TOUCH_Y_MAX", "y_max"), ("CH347_TOUCH_WIDTH", "width"),
    ("CH347_TOUCH_HEIGHT", "height"), ("CH347_TOUCH_Z_MIN", "z_min"),
    ("CH347_TOUCH_PRESSURE_MIN", "pressure_min"), ("CH347_TOUCH_PRESSURE_MAX", "pressure_max")]

/-- `CALIBRATION_DEFAULTS`. -/
def calibrationDefaults : Calibration where
  items := [("enabled", .bool true), ("swap_xy", .bool false), ("invert_x", .bool false),
    ("invert_y", .bool false), ("x_min", .int 200), ("x_max", .int 3900), ("y_min", .int 200),
    ("y_max", .int 3900), ("width", .int 320), ("height", .int 480), ("z_min", .int 50),
    ("pressure_min", .int 50), ("pressure_max", .int 4095)]
  nodup := by decide

/-- The fields of a calibration, in their order. -/
def calibrationFields : List String := calibrationDefaults.items.map Prod.fst

/-- `BOOLEAN_CALIBRATION_FIELDS`. -/
def booleanCalibrationFields : List String := ["enabled", "swap_xy", "invert_x", "invert_y"]

/-- `CALIBRATION_RANGES`. -/
def calibrationRanges : List (String × Int × Int) :=
  [("x_min", 0, 65535), ("x_max", 0, 65535), ("y_min", 0, 65535), ("y_max", 0, 65535),
    ("width", 1, 8192), ("height", 1, 8192), ("z_min", 0, 65535), ("pressure_min", 0, 65535),
    ("pressure_max", 1, 65535)]

/-- The check of one field of a calibration. -/
def checkField (field : String) (raw : Value) : Except HalError Value :=
  if booleanCalibrationFields.contains field then
    match raw with
    | .bool b => .ok (.bool b)
    | _ => .error (.validation s!"touch_calibration.{field} must be a boolean")
  else
    let range := (calibrationRanges.lookup field).getD (0, 0)
    (integer raw s!"touch_calibration.{field}" range.1 range.2).map .int

/-- A number of a calibration. -/
def number (calibration : Calibration) (field : String) : Int :=
  match calibration.get? field with
  | some (.int n) => n
  | _ => 0

/-- The loop of `_validated_calibration`. -/
def setFields (result : Calibration) : List (Value × Value) → Except HalError Calibration
  | [] => .ok result
  | (key, raw) :: rest => do
    let value ← checkField (keyName key) raw
    setFields (result.set (keyName key) value) rest

/-- The checks of `_validated_calibration` on the whole calibration. -/
def checkOrder (result : Calibration) : Except HalError Calibration :=
  if number result "x_min" ≥ number result "x_max" then
    .error (.validation "touch_calibration.x_min must be less than x_max")
  else if number result "y_min" ≥ number result "y_max" then
    .error (.validation "touch_calibration.y_min must be less than y_max")
  else if number result "pressure_min" ≥ number result "pressure_max" then
    .error (.validation "touch_calibration.pressure_min must be less than pressure_max")
  else .ok result

/-- `_validated_calibration`; `whole` is the negation of its `partial`. -/
def validatedCalibration (value : Value) (whole : Bool) (base : Option Calibration := none) :
    Except HalError Calibration := do
  let members ← match value with
    | .dict members => pure members
    | _ => throw (.validation "touch_calibration must be a small object")
  if members.length > calibrationFields.length then
    throw (.validation "touch_calibration must be a small object")
  let unknown := sortStrings
    ((members.map (keyName ∘ Prod.fst)).filter (!calibrationFields.contains ·))
  let unknownNames := String.intercalate ", " unknown
  if !unknown.isEmpty then
    throw (.validation s!"touch_calibration has unknown fields: {unknownNames}")
  if whole && calibrationFields.any fun field => (Value.lookup field members).isNone then
    throw (.validation "touch_calibration must contain every calibration field")
  let result ← setFields (base.getD calibrationDefaults) members
  checkOrder result

/-- What a value is written as. -/
def encoded : Value → Int
  | .bool b => flagInt b
  | .int n => n
  | _ => 0

/-- `_write_calibration`. -/
def writeCalibration (calibration : Calibration) : List Char :=
  document ("# Managed atomically by MSYS HAL CH347 control".toList ::
    calibrationKeys.map fun item =>
      settingLine item.1 (encoded ((calibration.get? item.2).getD .null)))

/-- The loop of `_load_calibration` over the assignments. -/
def decodeFields : List (String × Nat) → Except HalError (List (Value × Value))
  | [] => .ok []
  | (field, n) :: rest => do
    let value ←
      if booleanCalibrationFields.contains field then
        if n > 1 then
          throw (.provider "CH347 touch flags must be 0 or 1" [("field", .str field)])
        else pure (Value.bool (n == 1))
      else pure (Value.int n)
    let decoded ← decodeFields rest
    return (.str field, value) :: decoded

/-- The name of the calibration file. -/
def calibrationFile : String := "touch_calibration.env"

/-- `_load_calibration` when the file has been read. -/
def parseCalibration (text : List Char) : Except HalError Calibration := do
  let raw ← assignmentsFrom calibrationKeys calibrationFile 1 (splitlines text) []
  requireFields calibrationFields raw "CH347 touch calibration is incomplete"
  let decoded ← decodeFields raw
  validatedCalibration (.dict decoded) true

/-- `_load_calibration` for what `_read_regular` answers. -/
def loadCalibration (answer : Except HalError (Option (List Char))) : Calibration × Option String :=
  match answer with
  | .error e => (calibrationDefaults, some e.message)
  | .ok none => (calibrationDefaults, some "touch_calibration.env is missing")
  | .ok (some text) =>
    match parseCalibration text with
    | .ok calibration => (calibration, none)
    | .error e => (calibrationDefaults, some e.message)

end MsysHal.Ch347.Documents

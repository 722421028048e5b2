import MsysHal.ForStd.JsonLoads
import MsysHal.Python.Affine

/-!
# Display sessions

The reader of `msys.display-session.v1` (`msys_hal/display_session.py`) and what
the input backend makes of a session (`_session_from_gateway`, `_display_input`
and `_control` of `msys_hal/linux.py`).

A session keeps the fields of its document but for those with one accepted value
(`schema`, `state`, `space` and `verified`). What the environment supplies is in
`SessionSource` and `Xinput`: the answer of the window manager, the state files
with the time each is looked at, and the outcome of the `xinput` command.
-/

namespace MsysHal

open Python (Value Runtime PyFloat)
open Ch347 (Floats)

/-! ## Documents -/

/-- A non-empty string of at most `n` code points without NUL. -/
def shortText (n : Nat) : Value → Bool
  | .str s => !s.isEmpty && s.length ≤ n && !hasNul s
  | .lone codes => !codes.isEmpty && codes.length ≤ n && !codes.contains 0
  | _ => false

/-- `DISPLAY_RE`: `:[0-9]+(?:\.[0-9]+)?`. -/
def matchesDisplay (text : String) : Bool :=
  match text.toList with
  | ':' :: rest =>
    match dropDigits rest with
    | some [] => true
    | some ('.' :: rest) => dropDigits rest == some []
    | _ => false
  | _ => false

/-- A `ValueError`. -/
def valueError (text : String) : PyError := .exc "ValueError" text

/-- One number of a matrix, within `-16 .. 16`. -/
def matrixNumber (F : Floats) (label : String) (item : Value) : Except PyError ℚ := do
  let number ← match item with
    | .int n =>
      match F.ofInt n with
      | some x => pure (PyFloat.finite x "")
      | none => throw (PyError.exc "OverflowError" "int too large to convert to float")
    | .float f => pure f
    | _ => throw (valueError s!"{label} contains a non-number")
  match number with
  | .finite x _ =>
    if 16 < |x| then throw (valueError s!"{label} contains an unsafe value") else pure x
  | .nonFinite => throw (valueError s!"{label} contains an unsafe value")

/-- `normalized_matrix`, as far as it raises. -/
def normalizedMatrix (F : Floats) (value : Value) (label : String := "input transform") :
    Except PyError (List ℚ) :=
  match value with
  | .list items =>
    if items.length ≠ 9 then .error (valueError s!"{label} must contain exactly nine numbers")
    else do
      let matrix ← items.mapM (matrixNumber F label)
      let tiny := F.round (1 / 10 ^ 9)
      if tiny < |matrix.getD 6 0| || tiny < |matrix.getD 7 0| ||
          tiny < |F.round (matrix.getD 8 0 - 1)| then
        throw (valueError s!"{label} must be a normalized affine matrix")
      return matrix
  | _ => .error (valueError s!"{label} must contain exactly nine numbers")

/-- `set(members) == set(names)`. -/
def hasExactly (names : List String) (members : List (Value × Value)) : Bool :=
  (members.all fun member => names.any fun name => member.1.isKey name) &&
    names.all fun name => (Value.lookup name members).isSome

/-- An `int` that is not negative, and not a `bool`. -/
def naturalOf (message : String) : Value → Except PyError { n : Int // 0 ≤ n }
  | .int n => if h : 0 ≤ n then .ok ⟨n, h⟩ else .error (valueError message)
  | _ => .error (valueError message)

/-- A string within a bound. -/
def textOf (n : Nat) (message : String) (value : Value) :
    Except PyError { v : Value // shortText n v = true } :=
  if h : shortText n value = true then .ok ⟨value, h⟩ else .error (valueError message)

/-- The name of a display. -/
def displayOf : Value → Except PyError { s : String // matchesDisplay s = true }
  | .str s =>
    if h : matchesDisplay s = true then .ok ⟨s, h⟩
    else .error (valueError "display session DISPLAY is invalid")
  | _ => .error (valueError "display session DISPLAY is invalid")

/-- The optional device of a transform. -/
def transformDevice (value : Value) :
    Except PyError { v : Value // v = .null ∨ shortText 256 v = true } :=
  match value with
  | .null => .ok ⟨.null, .inl rfl⟩
  | value =>
    if h : shortText 256 value = true then .ok ⟨value, .inr h⟩
    else .error (valueError "display session input device is invalid")

/-- The geometry of a session: each size in its range. -/
def checkGeometry (value : Value) : Except PyError Unit :=
  match value with
  | .dict members => do
    if !hasExactly ["width", "height", "depth"] members then
      throw (valueError "display session geometry is invalid")
    [("width", (1 : Int), (65535 : Int)), ("height", 1, 65535), ("depth", 0, 128)].forM fun range =>
      let key := range.1
      match Value.lookup key members with
      | some (.int n) =>
        if range.2.1 ≤ n ∧ n ≤ range.2.2 then .ok ()
        else .error (valueError s!"display session geometry.{key} is invalid")
      | _ => .error (valueError s!"display session geometry.{key} is invalid")
  | _ => .error (valueError "display session geometry is invalid")

/-- A geometry that passes its check. -/
def geometryOf (value : Value) : Except PyError { v : Value // checkGeometry v = .ok () } :=
  match h : checkGeometry value with
  | .ok () => .ok ⟨value, h⟩
  | .error e => .error e

/-- The matrix of a transform, which only an enabled one has. -/
def transformMatrix (F : Floats) (enabled : Bool) (value : Value) :
    Except PyError { v : Value // enabled = false → v = .null } :=
  match enabled, value with
  | true, matrix => do
    let _ ← normalizedMatrix F matrix
    return ⟨matrix, fun h => Bool.noConfusion h⟩
  | false, .null => .ok ⟨.null, fun _ => rfl⟩
  | false, _ => .error (valueError "disabled display input must not contain a matrix")

/-- A validated input transform. -/
structure InputTransform where
  enabled : Bool
  mode : Value
  device : Value
  matrix : Value
  source : Value
  mode_valid : shortText 128 mode = true
  device_valid : device = .null ∨ shortText 256 device = true
  matrix_valid : enabled = false → matrix = .null
  source_valid : shortText 128 source = true

/-- A validated session, with the fields of its input transform. -/
structure DisplaySession extends InputTransform where
  provider : Value
  generation : Int
  display : String
  geometry : Value
  observedAt : Int
  provider_valid : shortText 256 provider = true
  generation_valid : 0 ≤ generation
  display_valid : matchesDisplay display = true
  geometry_valid : checkGeometry geometry = .ok ()
  observed_valid : 0 ≤ observedAt

/-- The input transform of a session. -/
def checkTransform (F : Floats) (value : Value) : Except PyError InputTransform :=
  match value with
  | .dict members => do
    let field (name : String) : Value := (Value.lookup name members).getD .null
    if !hasExactly ["enabled", "mode", "device", "space", "matrix", "source", "verified"]
      members then
      throw (valueError "display session input transform is invalid")
    let enabled ← match field "enabled" with
      | .bool b => pure b
      | _ => throw (valueError "display session input enabled flag is invalid")
    let mode ← textOf 128 "display session input mode is invalid" (field "mode")
    let source ← textOf 128 "display session input source is invalid" (field "source")
    let device ← transformDevice (field "device")
    match field "space", field "verified" with
    | .str "normalized-display", .bool true => pure ()
    | _, _ => throw (valueError "display session input transform is not verified")
    let matrix ← transformMatrix F enabled (field "matrix")
    return {
      enabled := enabled, mode := mode.1, device := device.1, matrix := matrix.1, source := source.1
      mode_valid := mode.2, device_valid := device.2, matrix_valid := matrix.2
      source_valid := source.2 }
  | _ => .error (valueError "display session input transform is invalid")

/-- `validate_display_session`. The JSON round trip at its end gives the document
    back, and raises for an integer that is too long to be written. -/
def validateDisplaySession (F : Floats) (document : Value) : Except PyError DisplaySession :=
  match document with
  | .dict members => do
    let field (name : String) : Value := (Value.lookup name members).getD .null
    if !(field "schema").isKey "msys.display-session.v1" then
      throw (valueError "display session must use msys.display-session.v1")
    if !hasExactly ["schema", "state", "provider", "generation", "display", "geometry",
        "input_transform", "observed_at_unix_ms"] members then
      throw (valueError "display session fields are invalid")
    if !(field "state").isKey "ready" then throw (valueError "display session is not ready")
    let provider ← textOf 256 "display session provider is invalid" (field "provider")
    let generation ← naturalOf "display session generation is invalid" (field "generation")
    let display ← displayOf (field "display")
    let geometry ← geometryOf (field "geometry")
    let transform ← checkTransform F (field "input_transform")
    let observedAt ← naturalOf "display session timestamp is invalid" (field "observed_at_unix_ms")
    if !(Python.shortInt generation.1 && Python.shortInt observedAt.1) then
      throw (valueError "Exceeds the limit (4300 digits) for integer string conversion")
    return {
      toInputTransform := transform, provider := provider.1, generation := generation.1
      display := display.1, geometry := geometry.1, observedAt := observedAt.1
      provider_valid := provider.2, generation_valid := generation.2, display_valid := display.2
      geometry_valid := geometry.2, observed_valid := observedAt.2 }
  | _ => .error (valueError "display session must use msys.display-session.v1")

/-! ## The reader -/

/-- A state file at the time it is looked at: not there, an error of the system or a
    file that is not a regular one, or its bytes. -/
inductive StateFile where
  | missing
  | failed
  | read (data : ByteArray)

/-- What the environment supplies of a session: the answer of the window manager, the
    state files of the reader in order, each with the time of its freshness check,
    and the age the reader accepts. -/
structure SessionSource where
  response : Option (Value × Int)
  files : List (StateFile × Int)
  maxAgeMs : Nat

/-- `_require_fresh`. -/
def requireFresh (maxAgeMs : Nat) (now : Int) (session : DisplaySession) : Except PyError Unit :=
  let age := now - session.observedAt
  if maxAgeMs ≠ 0 ∧ (age > maxAgeMs ∨ age < -5000) then
    .error (.hal (.unavailable "display-session state is stale"
      [("reason", .str "stale-state"), ("age_ms", .int age)]))
  else .ok ()

/-- `bytes.decode("utf-8-sig")`. -/
def decodeSig (data : ByteArray) : Option String :=
  if data.data.toList.take 3 = [0xef, 0xbb, 0xbf] then
    String.fromUTF8? (data.data.toList.drop 3).toByteArray
  else String.fromUTF8? data

/-- `_read_document` for the bytes of a file. -/
def readDocument (rt : Runtime) (F : Floats) (data : ByteArray) : Except PyError DisplaySession :=
  if data.size > 64 * 1024 || data.data.toList.contains 0 then
    .error (valueError "display session state is oversized or binary")
  else
    match decodeSig data with
    | none => .error (valueError "display session state is not valid JSON")
    | some text =>
      match Python.loads rt text.toList with
      | .ok document => validateDisplaySession F document
      | .error .recursionError => .error (.exc "RecursionError" "maximum recursion depth exceeded")
      | .error _ => .error (valueError "display session state is not valid JSON")

/-- `accept` and, for a state file, the two steps of `load`: validated and fresh. -/
def freshSession (maxAgeMs : Nat) (now : Int) (session : Except PyError DisplaySession) :
    Except PyError DisplaySession := do
  let session ← session
  requireFresh maxAgeMs now session
  return session

/-- The loop of `load`: the fresh sessions, and whether a file was invalid or stale. -/
def loadFiles (rt : Runtime) (F : Floats) (maxAgeMs : Nat) : List (StateFile × Int) →
    Except PyError (List DisplaySession × Bool × Bool)
  | [] => .ok ([], false, false)
  | (.missing, _) :: rest => loadFiles rt F maxAgeMs rest
  | (.failed, _) :: rest => do
    let (fresh, _, stale) ← loadFiles rt F maxAgeMs rest
    return (fresh, true, stale)
  | (.read data, now) :: rest =>
    match freshSession maxAgeMs now (readDocument rt F data) with
    | .ok session => do
      let (fresh, invalid, stale) ← loadFiles rt F maxAgeMs rest
      return (session :: fresh, invalid, stale)
    | .error (.exc "ValueError" _) => do
      let (fresh, _, stale) ← loadFiles rt F maxAgeMs rest
      return (fresh, true, stale)
    | .error (.hal _) => do
      let (fresh, invalid, _) ← loadFiles rt F maxAgeMs rest
      return (fresh, invalid, true)
    | .error e => .error e

/-- `max(fresh, key=observed_at_unix_ms)`: the first one among the latest. -/
def latest : List DisplaySession → Option DisplaySession
  | [] => none
  | session :: rest =>
    match latest rest with
    | none => some session
    | some other => if session.observedAt < other.observedAt then some other else some session

/-- `load`. -/
def load (rt : Runtime) (F : Floats) (source : SessionSource) : Except PyError DisplaySession := do
  let (fresh, invalid, stale) ← loadFiles rt F source.maxAgeMs source.files
  match latest fresh with
  | some session => return session
  | none =>
    let reason := if stale then "stale-state" else if invalid then "invalid-state" else "no-state"
    throw (.hal (.unavailable "display-session state is unavailable" [("reason", .str reason)]))

/-- `_session_from_gateway`. -/
def sessionFromGateway (F : Floats) (source : SessionSource) :
    Except PyError (Option DisplaySession) :=
  match source.response with
  | none => .ok none
  | some (response, now) =>
    match response.get? "type", response.get? "payload" with
    | some (.str "return"), some (.dict payload) =>
      match Value.lookup "ok" payload, Value.lookup "display_session" payload with
      | some (.bool true), some (.dict document) =>
        match freshSession source.maxAgeMs now (validateDisplaySession F (.dict document)) with
        | .ok session => .ok (some session)
        | .error (.exc "ValueError" _) => .ok none
        | .error (.hal _) => .ok none
        | .error e => .error e
      | _, _ => .ok none
    | _, _ => .ok none

/-- `_display_input`. -/
def displayInput (rt : Runtime) (F : Floats) (source : SessionSource) :
    Except PyError DisplaySession := do
  let session ← match ← sessionFromGateway F source with
    | some session => pure session
    | none => load rt F source
  if session.enabled then return session
  else throw (.hal (.unavailable "display session has no active input transform"
    [("id", .str "input:display-touch"), ("mode", session.mode)]))

/-! ## The xinput control -/

/-- The outcome of `xinput list --id-only`: no such program is configured, it could
    not be started or timed out, it raised another exception, or it ended with a
    return code and these lines that are numbers. -/
inductive Xinput where
  | absent
  | unavailable (cause : String)
  | raised (error : PyError)
  | done (returncode : Int) (ids : List String)

/-- What the control of the display touch input is. -/
inductive Control where
  | writable
  | readOnly
  | unavailable
deriving DecidableEq, Repr

/-- The text of a control. -/
def Control.text : Control → String
  | .writable => "writable"
  | .readOnly => "read-only"
  | .unavailable => "unavailable"

/-- Whether `_xinput_id` can ask for the device by its name. -/
def namesDevice : Value → Bool
  | .str s => !s.isEmpty && s.toList.head? != some '-' && s.toList.all fun c => 32 ≤ c.toNat
  | .lone codes => !codes.isEmpty && codes.head? != some 45 && codes.all (32 ≤ ·)
  | _ => false

/-- `_control`, from the outcome of the command; its first component. -/
def control (xinput : Xinput) (session : DisplaySession) : Except PyError Control :=
  if !session.mode.isKey "xinput" then .ok .readOnly
  else if !namesDevice session.device then .ok .readOnly
  else
    match xinput with
    | .absent => .ok .readOnly
    | .unavailable _ => .ok .unavailable
    | .raised e => .error e
    | .done returncode ids =>
      if returncode ≠ 0 ∨ ids = [] then .ok .unavailable
      else if ids.length ≠ 1 then .ok .readOnly
      else .ok .writable

end MsysHal

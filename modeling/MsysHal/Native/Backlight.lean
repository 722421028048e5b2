import MsysHal.Native.Wifi

/-!
# Backlights of the native HAL

`build_get_state` and `build_set_state` of `native_hal.c` for a backlight, from the parsed
request on. The device scan, what is read from an attribute file and whether a write
succeeds are the environment's. C leaves an overflow of a signed integer undefined, and so
every result of 64-bit arithmetic is checked.
-/

namespace MsysHal.Native

open Interleave (Sig Proc ask)

/-! ## Arithmetic -/

/-- A result of signed 64-bit arithmetic; `none` where it overflows. -/
def int64 (n : Int) : Option Int := if -2 ^ 63 ≤ n ∧ n < 2 ^ 63 then some n else none

/-- `(brightness * 100 + maximum / 2) / maximum`. -/
def brightnessPercent (brightness maximum : Int) : Option Int := do
  let scaled ← int64 (brightness * 100)
  let sum ← int64 (scaled + maximum.tdiv 2)
  int64 (sum.tdiv maximum)

/-- `(percent * maximum + 50) / 100`. -/
def brightnessOf (percent maximum : Int) : Option Int := do
  let scaled ← int64 (percent * maximum)
  let sum ← int64 (scaled + 50)
  int64 (sum.tdiv 100)

/-! ## Steps -/

/-- A backlight of the device list. -/
structure BacklightDevice where
  name : String
  maximum : Int
  writable : Bool
deriving DecidableEq, Repr

/-- The steps of a request: the device scan, the text of the `brightness` attribute, and a
    write to it. -/
inductive BacklightOp where
  | scan
  | read (name : String)
  | write (name : String) (value : Int)
deriving DecidableEq, Repr

/-- The answer of a step. -/
abbrev BacklightOp.Ret : BacklightOp → Type
  | .scan => List BacklightDevice
  | .read _ => Option Bytes
  | .write _ _ => Bool

/-- The steps and their answers. -/
abbrev backlightSig : Sig := ⟨BacklightOp, BacklightOp.Ret⟩

/-- A function of the process; the memory is `revision_number`. -/
abbrev BacklightM := Proc backlightSig UInt64

/-- One step. -/
def backlightCall (o : BacklightOp) : BacklightM o.Ret := ask (S := backlightSig) o

/-- `read_i64_file` of the `brightness` attribute. -/
def readBrightness (name : String) (minimum maximum : Int) : BacklightM (Option Int) := do
  let data ← backlightCall (.read name)
  return fileI64 minimum maximum data

/-- `write_i64_verified` of the `brightness` attribute. -/
def writeBrightness (name : String) (requested : Int) : BacklightM Bool := do
  if ← backlightCall (.write name requested) then
    let observed ← readBrightness name (-2 ^ 63) (2 ^ 63 - 1)
    return observed == some requested
  else return false

/-! ## Requests -/

/-- The values of a backlight's state. -/
structure BrightnessValues where
  brightness : Int
  percent : Int
  maximum : Int
deriving DecidableEq, Repr

/-- The state that a request returns. -/
structure BacklightState where
  revision : UInt64
  name : String
  values : Option BrightnessValues
  writable : Bool
deriving DecidableEq, Repr

/-- How a request fails: a refusal, or undefined behaviour. -/
inductive Failure where
  | refused (refusal : Refusal)
  | overflow
deriving DecidableEq, Repr

/-- The result of arithmetic. -/
def defined {α : Type} : Option α → Except Failure α
  | none => .error .overflow
  | some a => .ok a

/-- The `values` of `append_state` for a backlight. -/
def appendBrightness (device : BacklightDevice) :
    BacklightM (Except Failure (Option BrightnessValues)) := do
  match ← readBrightness device.name 0 device.maximum with
  | none => return .ok none
  | some brightness =>
    return (defined (brightnessPercent brightness device.maximum)).map fun percent =>
      some ⟨brightness, percent, device.maximum⟩

/-- `append_state` of a backlight. -/
def appendBacklightState (device : BacklightDevice) :
    BacklightM (Except Failure BacklightState) := do
  let revision ← get
  let values ← appendBrightness device
  return values.map fun values => ⟨revision, device.name, values, device.writable⟩

/-- `find_device` for an id of the domain `backlight`. -/
def findBacklight (devices : List BacklightDevice) (name : String) : Option BacklightDevice :=
  if validName name then devices.find? (·.name == name) else none

/-- `build_get_state`. -/
def backlightGetState (name : String) : BacklightM (Except Failure BacklightState) := do
  let devices ← backlightCall .scan
  match findBacklight devices name with
  | none => return .error (.refused .unavailable)
  | some device => appendBacklightState device

/-- An integer within bounds. -/
def boundedToken (token : JsonToken) (maximum : Int) : Except Failure Int :=
  match (tokenI64 token).filter fun n => decide (0 ≤ n) && decide (n ≤ maximum) with
  | none => .error (.refused .badPayload)
  | some n => .ok n

/-- The brightness that a change asks for. -/
def requestedBrightness (maximum : Int) (changes : List (Bytes × JsonToken)) : Except Failure Int :=
  if changes.length ≠ 1 || !objectValidateFields changes ["brightness", "brightness_percent"] then
    .error (.refused .badPayload)
  else
    match objectField changes "brightness", objectField changes "brightness_percent" with
    | some brightness, none => boundedToken brightness maximum
    | none, some percent => do
      let percent ← boundedToken percent 100
      defined (brightnessOf percent maximum)
    | _, _ => .error (.refused .badPayload)

/-- The end of `build_set_state` after the write. -/
def backlightChanged (name : String) : BacklightM (Except Failure BacklightState) := do
  modify (· + 1)
  let devices ← backlightCall .scan
  match findBacklight devices name with
  | none => return .error (.refused .internal)
  | some device => appendBacklightState device

/-- `build_set_state` for a backlight. -/
def backlightSetState (name : String) (changes : List (Bytes × JsonToken)) :
    BacklightM (Except Failure BacklightState) := do
  if changes.isEmpty then return .error (.refused .badPayload)
  else
    let devices ← backlightCall .scan
    match findBacklight devices name with
    | none => return .error (.refused .unavailable)
    | some device =>
      if !device.writable then return .error (.refused .readOnly)
      else
        match requestedBrightness device.maximum changes with
        | .error failure => return .error failure
        | .ok requested =>
          if ← writeBrightness device.name requested then backlightChanged name
          else return .error (.refused .internal)

end MsysHal.Native

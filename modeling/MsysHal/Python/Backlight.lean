import MsysHal.ForStd.Round
import MsysHal.Python.Radios

/-!
# The backlight backend

`get_state` and `set_state` of `BacklightBackend` (`msys_hal/linux.py`). What the class
directory holds, what is read from the attribute files and what becomes of a write is the
environment's. The division of a percentage is exact.
-/

namespace MsysHal.Backlight

open Interleave (Sig Prog)
open Python (Value roundHalfEven)

/-! ## Steps -/

/-- What becomes of `_safe_write`: an `OSError` of a `resolve`, a refused target, a
    `PermissionError`, any other `OSError`, or a complete write. -/
inductive Written where
  | unresolved
  | refused
  | denied
  | failed (error : String)
  | complete
deriving DecidableEq, Repr

/-- The steps of the backend. -/
inductive BacklightOp where
  | entries
  | read (name file : String)
  | writable (name : String)
  | write (name : String) (value : Int)
deriving DecidableEq, Repr

/-- The answer of a step. -/
abbrev BacklightOp.Ret : BacklightOp → Type
  | .entries => Option (List Entry)
  | .read _ _ => Option ByteArray
  | .writable _ => Bool
  | .write _ _ => Written

/-- The steps and their answers. -/
abbrev backlightSig : Sig := ⟨BacklightOp, BacklightOp.Ret⟩

/-- A method of the backend. -/
abbrev BacklightProg := Prog backlightSig PyError

/-- One step. -/
def op (o : BacklightOp) : BacklightProg o.Ret := Prog.perform (S := backlightSig) o

/-- Raise a `HalError`. -/
def fail {α : Type} (error : HalError) : BacklightProg α := .raise (.hal error)

/-- Raise the error of a check. -/
def check {α : Type} (x : Except HalError α) : BacklightProg α := Prog.ofExcept (x.mapError .hal)

/-- `_read_int` of an attribute. -/
def readAttribute (name file : String) (minimum maximum : Int) : BacklightProg (Option Int) := do
  let data ← op (.read name file)
  return readInt minimum maximum data

/-! ## Methods -/

/-- `_name_from_id`; a valid id has no character that `repr` escapes. -/
def nameFromId (identifier expected : String) : Except HalError String := do
  let parsed ← deviceId (.str identifier)
  let name := (parsed.toList.dropWhile (· ≠ ':')).drop 1
  if domainOf parsed ≠ expected || !matchesEntry name then
    throw (.validation s!"device '{identifier}' does not belong to {expected}")
  return String.ofList name

/-- `_entry`. -/
def findEntry (identifier : String) : BacklightProg String := do
  let name ← check (nameFromId identifier "backlight")
  let items ← op .entries
  if (entries items).any (·.name == name) then return name
  else fail (.unavailable "backlight device is unavailable" [("id", .str identifier)])

/-- `round(brightness * 100 / maximum)`. -/
def brightnessPercent (brightness maximum : Int) : Int :=
  roundHalfEven ((brightness * 100 : Int) / maximum)

/-- `(percent * maximum + 50) // 100`. -/
def brightnessOf (percent maximum : Int) : Int := (percent * maximum + 50) / 100

/-- What `get_state` returns. -/
structure BacklightState where
  identifier : String
  brightness : Int
  maximum : Int
  actual : Option Int
  writable : Bool
deriving DecidableEq, Repr

/-- `values["brightness_percent"]`. -/
def BacklightState.percent (state : BacklightState) : Int :=
  brightnessPercent state.brightness state.maximum

/-- The result of `get_state`. -/
def BacklightState.payload (state : BacklightState) : Value :=
  .object [("id", .str state.identifier), ("domain", .str "backlight"), ("available", .bool true),
    ("values", .object ([("brightness", .int state.brightness),
      ("brightness_percent", .int state.percent), ("max_brightness", .int state.maximum)] ++
      (state.actual.toList.flatMap fun actual => [("actual_brightness", .int actual),
        ("actual_brightness_percent", .int (brightnessPercent actual state.maximum))]))),
    ("mutable", strings (if state.writable then ["brightness", "brightness_percent"] else []))]

/-- `BacklightBackend.get_state`. -/
def getState (identifier : String) : BacklightProg BacklightState := do
  let name ← findEntry identifier
  let maximum ← readAttribute name "max_brightness" 1 (2 ^ 31 - 1)
  let brightness ← readAttribute name "brightness" 0 (2 ^ 31 - 1)
  match maximum, brightness with
  | some maximum, some brightness =>
    let actual ← readAttribute name "actual_brightness" 0 maximum
    let writable ← op (.writable name)
    return ⟨identifier, brightness, maximum, actual, writable⟩
  | _, _ => fail (.unavailable "backlight attributes are unreadable" [("id", .str identifier)])

/-- The brightness that a change asks for. -/
def requestedBrightness (maximum : Int) (changes : List (Value × Value)) : Except HalError Int :=
  match Value.lookup "brightness" changes with
  | some brightness => integer brightness "changes.brightness" 0 maximum
  | none => do
    let percent ← integer ((Value.lookup "brightness_percent" changes).getD .null)
      "changes.brightness_percent" 0 100
    return brightnessOf percent maximum

/-- `_safe_write` of the brightness. -/
def safeWrite (name : String) (value : Int) : BacklightProg Unit := do
  match ← op (.write name value) with
  | .unresolved => fail (.unavailable "backlight attribute is unavailable")
  | .refused => fail (.provider "refusing backlight write outside the validated sysfs attribute")
  | .denied => fail (Network.readOnly "backlight brightness is read-only")
  | .failed error => fail (.provider "backlight write failed" [("error", .str (clip 256 error))])
  | .complete => return ()

/-- `None` or an integer as JSON. -/
def optionalInt : Option Int → Value
  | none => .null
  | some n => .int n

/-- `BacklightBackend.set_state`. -/
def setState (identifier : String) (changes : List (Value × Value)) :
    BacklightProg BacklightState := do
  if changes.length ≠ 1 || !Network.keysWithin ["brightness", "brightness_percent"] changes then
    fail (.validation "backlight changes must contain exactly brightness or brightness_percent")
  else
    let name ← findEntry identifier
    match ← readAttribute name "max_brightness" 1 (2 ^ 31 - 1) with
    | none => fail (.unavailable "backlight maximum is unreadable" [("id", .str identifier)])
    | some maximum =>
      if ← op (.writable name) then
        let requested ← check (requestedBrightness maximum changes)
        safeWrite name requested
        let observed ← readAttribute name "brightness" 0 maximum
        if observed ≠ some requested then
          fail (.provider "backlight write could not be verified" [("id", .str identifier),
            ("requested", .int requested), ("observed", optionalInt observed)])
        else getState identifier
      else
        fail ⟨"HAL_READ_ONLY", "backlight brightness is read-only",
          [("id", .str identifier), ("mutable", .list [])]⟩

end MsysHal.Backlight

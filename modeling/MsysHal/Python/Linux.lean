import MsysHal.ForStd.Text
import MsysHal.Python.DisplaySession
import MsysHal.Python.Manager

/-!
# The Linux providers

The inventories of the power, thermal, backlight and input backends
(`msys_hal/linux.py`) and the `inventory` method of `ProviderService`
(`msys_hal/provider.py`) over them. The file system is what a backend finds in
it: the entries of a class directory in any order, with the contents of the
attribute files below each.
-/

namespace MsysHal

open Python (Value Runtime)
open Ch347 (Floats)

/-! ## Files -/

/-- An entry of a directory: its name as code points (a name that is not UTF-8 has
    surrogates), whether it is a directory (`none` for an `OSError`), the contents
    of the files below it, and which of them can be written. -/
structure Entry where
  name : List Nat
  isDir : Option Bool
  file : List String → Option ByteArray
  writable : List String → Bool

/-- `_read_text`. -/
def readText (maximum : Nat) (file : Option ByteArray) : Option String :=
  match file with
  | none => none
  | some data =>
    if data.size > maximum || data.data.toList.contains 0 then none
    else (String.fromUTF8? data).map fun text => String.ofList (Python.Text.strip text.toList)

/-- `-?[0-9]+`. -/
def intLiteral (text : List Char) : Option Int :=
  let digits (text : List Char) : Option Nat :=
    if text.isEmpty || !text.all isAsciiDigit then none else some (Nat.ofDigitChars 10 text 0)
  match text with
  | '-' :: rest => (digits rest).map fun n => -(n : Int)
  | text => (digits text).map fun n => (n : Int)

/-- `_read_int`. -/
def readInt (minimum maximum : Int) (file : Option ByteArray) : Option Int := do
  let raw ← readText 64 file
  let value ← intLiteral raw.toList
  if value < minimum ∨ value > maximum then none else some value

/-- `[A-Za-z0-9._-]`. -/
def isEntryChar (c : Char) : Bool :=
  isLower c || isUpper c || isAsciiDigit c || c == '.' || c == '_' || c == '-'

/-- `ENTRY_RE`: `[A-Za-z0-9][A-Za-z0-9._-]{0,127}`. -/
def matchesEntry : List Char → Bool
  | [] => false
  | c :: rest =>
    (isLower c || isUpper c || isAsciiDigit c) && rest.length ≤ 127 && rest.all isEntryChar

/-- `EVENT_RE`: `event[0-9]{1,6}`. -/
def matchesEvent (text : List Char) : Bool :=
  let digits := text.drop 5
  "event".toList.isPrefixOf text && !digits.isEmpty && digits.length ≤ 6 && digits.all isAsciiDigit

/-- The name of an entry where it matches `ENTRY_RE`. -/
def entryName (name : List Nat) : Option { s : String // matchesEntry s.toList = true } :=
  let text := name.map Char.ofNat
  if h : name.all (fun n => decide n.isValidChar) = true ∧ matchesEntry text = true then
    some ⟨String.ofList text, by rw [String.toList_ofList]; exact h.2⟩
  else none

/-- An entry that `_entries` returns. -/
structure Found where
  name : String
  entry : Entry
  name_valid : matchesEntry name.toList = true

/-- What `_entries` makes of one entry. -/
def findEntry (prefixes : List String) (entry : Entry) : Option Found :=
  match entryName entry.name with
  | none => none
  | some name =>
    if !prefixes.isEmpty && !prefixes.any fun p => p.toList.isPrefixOf name.1.toList then none
    else if entry.isDir = some true then some ⟨name.1, entry, name.2⟩
    else none

/-- `_entries`; `none` for a directory that cannot be listed. -/
def entries (root : Option (List Entry)) (prefixes : List String := []) : List Found :=
  match root with
  | none => []
  | some items =>
    ((items.insertionSort fun a b => a.name ≤ b.name).take 128).filterMap (findEntry prefixes)

/-! ## Devices -/

/-- The arguments of `_device`. -/
structure LinuxDevice where
  name : String
  available : Bool := true
  mutable : List String := []
  metadata : List (String × Value) := []

/-- `_device`. -/
def LinuxDevice.payload (d : String) (device : LinuxDevice) : Value :=
  .object [("id", .str (d ++ ":" ++ device.name)), ("domain", .str d),
    ("name", .str (clip 128 device.name)), ("available", .bool device.available),
    ("mutable", strings device.mutable), ("metadata", .object device.metadata)]

/-- What a backend returns as its inventory. -/
structure BackendInventory where
  domain : String
  devices : List LinuxDevice
  reason : String

/-- The row of the domain, as `_inventory` makes it, without the devices. -/
def BackendInventory.row (inventory : BackendInventory) : Value :=
  if inventory.devices.any (·.available) then
    .object [("domain", .str inventory.domain), ("status", .str "available")]
  else
    .object [("domain", .str inventory.domain), ("status", .str "unavailable"),
      ("reason", .str inventory.reason)]

/-! ## Backends -/

/-- `PowerBackend.inventory`. -/
def powerInventory (root : Option (List Entry)) : BackendInventory where
  domain := "power"
  devices := (entries root).map fun found =>
    let type := ((readText 64 (found.entry.file ["type"])).filter (!·.isEmpty)).getD "unknown"
    { name := found.name, metadata := [("type", .str (clip 64 type))] }
  reason := "power-supply-class-unavailable"

/-- `ThermalBackend.inventory`. -/
def thermalInventory (root : Option (List Entry)) : BackendInventory where
  domain := "thermal"
  devices := (entries root ["thermal_zone"]).map fun found =>
    let type := ((readText 128 (found.entry.file ["type"])).filter (!·.isEmpty)).getD found.name
    { name := found.name, metadata := [("type", .str (clip 128 type))] }
  reason := "thermal-class-unavailable"

/-- The device `BacklightBackend.inventory` makes of an entry. -/
def backlightDevice (found : Found) : Option LinuxDevice :=
  match readInt 1 (2 ^ 31 - 1) (found.entry.file ["max_brightness"]) with
  | none => none
  | some maximum =>
    let brightness := readInt 0 maximum (found.entry.file ["brightness"])
    let writable := brightness.isSome && found.entry.writable ["brightness"]
    some {
      name := found.name
      available := brightness.isSome
      mutable := if writable then ["brightness", "brightness_percent"] else []
      metadata := [("max_brightness", .int maximum),
        ("control", .str (if writable then "writable" else "read-only"))] }

/-- `BacklightBackend.inventory`. -/
def backlightInventory (root : Option (List Entry)) : BackendInventory where
  domain := "backlight"
  devices := (entries root).filterMap backlightDevice
  reason := "backlight-class-unavailable"

/-- The fields of a block of `/proc/bus/input/devices`; a later line replaces an
    earlier one. -/
def blockFields (block : List Char) : Dict String (List Char) :=
  ((Python.Text.splitlines block).take 64).foldl (fun fields line =>
    match Python.Text.cut line with
    | none => fields
    | some (key, value) =>
      if ["N", "P", "S", "H", "I"].contains (String.ofList key) then
        fields.set (String.ofList key) ((Python.Text.strip value).take 512)
      else fields) Dict.empty

/-- A field where it starts with a mark: what follows the first `skip` characters,
    cut to `n`. -/
def markedField (fields : Dict String (List Char)) (key mark : String) (skip n : Nat) :
    Option String :=
  let value := (fields.get? key).getD []
  if mark.toList.isPrefixOf value then some (String.ofList ((value.drop skip).take n)) else none

/-- The device name of a block. -/
def blockName (fields : Dict String (List Char)) : String :=
  let name := (fields.get? "N").getD "Name=Unknown".toList
  let name :=
    if "Name=".toList.isPrefixOf name then Python.Text.stripMark '"' (name.drop 5) else name
  if (name.take 128).isEmpty then "Unknown" else String.ofList (name.take 128)

/-- The device of a block, where a handler names an event. -/
def blockDevice (block : List Char) : Option LinuxDevice :=
  let fields := blockFields block
  ((Python.Text.words ((fields.get? "H").getD [])).find? matchesEvent).map fun event =>
    { name := String.ofList event
      metadata := [("name", .str (blockName fields))] ++
        (markedField fields "P" "Phys=" 5 128).toList.map (fun s => ("physical", .str s)) ++
        (markedField fields "S" "Sysfs=" 6 256).toList.map (fun s => ("sysfs", .str s)) ++
        (markedField fields "I" "Bus=" 0 256).toList.map (fun s => ("identity", .str s)) }

/-- `parse_input_devices`: of the devices with one id the last, in the order of the ids. -/
def parseInputDevices (text : List Char) : List LinuxDevice :=
  let devices := ((Python.Text.splitBlocks text).take 128).filterMap blockDevice
  let unique := devices.foldl (fun unique device => unique.set device.name device)
    (Dict.empty : Dict String LinuxDevice)
  (sortStrings (unique.items.map Prod.fst)).filterMap unique.get?

/-- The devices of the `input` class directory. -/
def eventDevices (root : Option (List Entry)) : List LinuxDevice :=
  ((entries root ["event"]).filter fun found => matchesEvent found.name.toList).map fun found =>
    let name :=
      ((readText 128 (found.entry.file ["device", "name"])).filter (!·.isEmpty)).getD "Unknown"
    { name := found.name, metadata := [("name", .str (clip 128 name))] }

/-- `str(value)[:n]` of a string. -/
def clipText (n : Nat) : Value → Value
  | .str s => .str (clip n s)
  | .lone codes => Python.strOfCodes (codes.take n)
  | v => v

/-- The display touch input of a session. -/
def touchDevice (session : DisplaySession) (control : Control) : LinuxDevice where
  name := "display-touch"
  mutable := if control = .writable then ["orientation", "matrix"] else []
  metadata := [("name", match session.device with
      | .null => .str "Display touch input"
      | device => clipText 128 device),
    ("mode", session.mode), ("display", .str session.display), ("provider", session.provider),
    ("control", .str control.text)]

/-- The kernel devices of `InputBackend.inventory`. -/
def kernelDevices (procFile : Option ByteArray) (root : Option (List Entry)) : List LinuxDevice :=
  let devices := match (readText (256 * 1024) procFile).filter (!·.isEmpty) with
    | some text => parseInputDevices text.toList
    | none => []
  if devices.isEmpty then eventDevices root else devices

/-- What `InputBackend.inventory` appends for the display session. -/
def touchDevices (rt : Runtime) (F : Floats) (source : SessionSource) (xinput : Xinput) :
    Except PyError (List LinuxDevice) :=
  match displayInput rt F source with
  | .ok session => do
    let control ← control xinput session
    return [touchDevice session control]
  | .error (.hal _) => .ok []
  | .error e => .error e

/-- `InputBackend.inventory`. -/
def inputInventory (rt : Runtime) (F : Floats) (procFile : Option ByteArray)
    (root : Option (List Entry)) (source : SessionSource) (xinput : Xinput) :
    Except PyError BackendInventory := do
  let touch ← touchDevices rt F source xinput
  return ⟨"input", kernelDevices procFile root ++ touch, "input-inventory-unavailable"⟩

/-- A backend with what it finds when it is asked. -/
inductive LinuxBackend where
  | power (root : Option (List Entry))
  | thermal (root : Option (List Entry))
  | backlight (root : Option (List Entry))
  | input (procFile : Option ByteArray) (root : Option (List Entry)) (source : SessionSource)
      (xinput : Xinput)

/-- The domain of a backend. -/
def LinuxBackend.domain : LinuxBackend → String
  | .power _ => "power"
  | .thermal _ => "thermal"
  | .backlight _ => "backlight"
  | .input _ _ _ _ => "input"

/-- The inventory of a backend. -/
def LinuxBackend.inventory (rt : Runtime) (F : Floats) :
    LinuxBackend → Except PyError BackendInventory
  | .power root => .ok (powerInventory root)
  | .thermal root => .ok (thermalInventory root)
  | .backlight root => .ok (backlightInventory root)
  | .input procFile root source xinput => inputInventory rt F procFile root source xinput

/-! ## The provider -/

/-- A provider of these backends, as `ProviderService.__init__` leaves it: each backend is
    found under its own domain, and the provider has the id of a component. -/
structure ProviderService where
  backends : List LinuxBackend
  providerId : String
  backends_distinct : (backends.map (·.domain)).Nodup
  provider_valid : matchesComponent providerId = true
  provider_length : providerId.length ≤ 192

/-- `self.backends[domain]`. -/
def ProviderService.backend (service : ProviderService) (d : String) : Option LinuxBackend :=
  service.backends.find? (·.domain == d)

/-- The reply to an inventory request. -/
def inventoryReply (providerId : String) (inventories : List BackendInventory) :
    List (Value × Value) :=
  [(.str "schema", .str providerInterface), (.str "provider", .str providerId),
    (.str "domains", .list (inventories.map (·.row))),
    (.str "devices", .list (inventories.flatMap fun inventory =>
      inventory.devices.map (·.payload inventory.domain)))]

/-- The domains a request asks for; all of them when it names none. -/
def ProviderService.requested (service : ProviderService) (request : List (Value × Value)) :
    Except HalError (List String) :=
  match Value.lookup "domains" request with
  | none => .ok (sortStrings (service.backends.map (·.domain)))
  | some raw => do
    let items ← stringList raw "domains" 32
    let requested ← checkedDomains 0 items
    let unknown := sortStrings (requested.filter fun d => (service.backend d).isNone)
    let unknownNames := String.intercalate ", " unknown
    if !unknown.isEmpty then
      throw (.validation s!"provider does not implement domains: {unknownNames}")
    return requested

/-- `ProviderService.handle("inventory", payload)`. -/
def ProviderService.inventory (rt : Runtime) (F : Floats) (service : ProviderService)
    (payload : Value) : Except PyError (List (Value × Value)) := do
  let request ← (objectPayload payload ["domains"]).mapError .hal
  let selected ← (service.requested request).mapError .hal
  let inventories ← (selected.filterMap service.backend).mapM (·.inventory rt F)
  return inventoryReply service.providerId inventories

end MsysHal

import MsysHal.Native.Bluetooth

/-!
# Bluetooth power and state requests of the native HAL

rfkill radios, `request_bluetooth_power` with its recovery paths, and the requests
that answer with the state of a controller: `get_state`, and `set_state` with the
scan action or a `powered` change, from the parsed request on. The class
directories are those of the running system, so a path is always short enough.
-/

namespace MsysHal.Native

/-! ## Attribute files -/

/-- The text that `read_text_file` makes of what it has read: up to the first NUL, without
    trailing space. -/
def fileText (capacity : Nat) (data : Option Bytes) : Option (List Char) :=
  match data with
  | none => none
  | some data =>
    let data := (data.take capacity).map fun b => Char.ofNat b.toNat
    let text := (data.rdropWhile isSpaceC).takeWhile (· ≠ '\x00')
    -- A text that fills the buffer may have been cut.
    if data.isEmpty || decide (data.length ≥ capacity) then none
    else if text.all fun c => 0x20 ≤ c.toNat && c.toNat ≤ 0x7e then some text
    else none

/-- `read_text_file`. -/
def readTextFile (capacity : Nat) (file : SysFile) : NativeM (Option (List Char)) := do
  let data ← call (.read file)
  return fileText capacity data

/-- The number that `read_i64_file` makes of what it has read. -/
def fileI64 (minimum maximum : Int) (data : Option Bytes) : Option Int :=
  (fileText 64 data).bind (parseBounded minimum maximum)

/-- `read_i64_file`. -/
def readI64File (minimum maximum : Int) (file : SysFile) : NativeM (Option Int) := do
  let data ← call (.read file)
  return fileI64 minimum maximum data

/-- `write_i64_verified`. -/
def writeI64Verified (file : SysFile) (requested : Int) : NativeM Bool := do
  match ← call (.write file requested) with
  | false => return false
  | true =>
    -- The attribute has to read back as it was written.
    let observed ← readI64File (-2 ^ 63) (2 ^ 63 - 1) file
    return observed == some requested

/-- The names that `list_entries` keeps of a directory. -/
def entryNames (start : String) (entries : Option (List (String × Bool))) : List String :=
  match entries with
  | none => []
  | some entries =>
    let names := entries.filter fun entry =>
      validName entry.1 && start.toList.isPrefixOf entry.1.toList && entry.2
    sortStrings ((names.map Prod.fst).take maxEntries)

/-- `list_entries`. -/
def listEntries (root : SysClass) (start : String) : NativeM (List String) := do
  let entries ← call (.list root)
  return entryNames start entries

/-! ## Radios -/

/-- The domains of `radio_power`. -/
inductive RadioDomain where
  | network
  | bluetooth
deriving DecidableEq, Repr

/-- Whether a radio of a type belongs to the domain. -/
def RadioDomain.matches (type : List Char) : RadioDomain → Bool
  | .bluetooth => type == "bluetooth".toList
  | .network => type == "wlan".toList || type == "wifi".toList

/-- `RadioPower`. -/
structure RadioPower where
  name : String
  hardBlocked : Bool
  unblocked : Bool
  writable : Bool
deriving DecidableEq, Repr

/-- The `soft` attribute of a radio. -/
def softFile (name : String) : SysFile := ⟨.rfkill, name, "soft"⟩

/-- The state of one radio, where it belongs to the domain and can be read. -/
def readRadio (domain : RadioDomain) (name : String) : NativeM (Option RadioPower) := do
  let type ← readTextFile 32 ⟨.rfkill, name, "type"⟩
  if !type.any domain.matches then return none
  else
    match ← readI64File 0 1 ⟨.rfkill, name, "hard"⟩ with
    | none => return none
    | some hard =>
      match ← readI64File 0 1 (softFile name) with
      | none => return none
      | some soft =>
        -- A hard block makes the radio read-only.
        if hard ≠ 0 then return some ⟨name, true, decide (soft = 0), false⟩
        else
          let writable ← call (.writable (softFile name))
          return some ⟨name, false, decide (soft = 0), writable⟩

/-- The first radio of the names. -/
def firstRadio (domain : RadioDomain) : List String → NativeM (Option RadioPower)
  | [] => return none
  | name :: names => do
    match ← readRadio domain name with
    | some radio => return some radio
    | none => firstRadio domain names

/-- `radio_power`. -/
def radioPower (domain : RadioDomain) : NativeM (Option RadioPower) := do
  let names ← listEntries .rfkill "rfkill"
  firstRadio domain names

/-- `set_radio_power`. -/
def setRadioPower (domain : RadioDomain) (powered : Bool) : NativeM Bool := do
  match ← radioPower domain with
  | none => return false
  | some state =>
    if state.hardBlocked || !state.writable then return false
    else writeI64Verified (softFile state.name) (if powered then 0 else 1)

/-! ## Power -/

/-- `BluetoothPowerOps`: the functions that a power request is made of, in any monad, with
    `bluetooth_management_index_missing`. -/
structure BluetoothPowerOps (m : Type → Type) where
  readInfo : String → m (Option BluetoothInfo)
  writeManagement : String → Bool → m Bool
  readRfkill : RadioDomain → m (Option RadioPower)
  writeRfkill : RadioDomain → Bool → m Bool
  waitMs : Nat → m Unit
  indexMissing : m Bool

section PowerOps

variable {m : Type → Type} [Monad m] (ops : BluetoothPowerOps m) (interface : String)

/-- The probes after Set Powered(true) that are left. -/
def awaitPowered : Nat → m Bool
  | 0 => return false
  | attempts + 1 => do
    match ← ops.readInfo interface with
    | some info => return info.powered
    | none =>
      ops.waitMs 50
      awaitPowered attempts

/-- The probes after an rfkill edge that are left. -/
def awaitReprobe : Nat → m Bool
  | 0 => return false
  | attempts + 1 => do
    match ← ops.readInfo interface with
    | some info =>
      -- A controller without power is asked for it, and then looked for again.
      if info.powered then return true
      else
        match ← ops.writeManagement interface true with
        | false => return false
        | true =>
          ops.waitMs 100
          awaitReprobe attempts
    | none =>
      match ← ops.indexMissing with
      -- Only an empty index list is waited for.
      | false => return false
      | true =>
        ops.waitMs 100
        awaitReprobe attempts

/-- An rfkill block, for a radio that is not blocked. -/
def blockEdge (radio : RadioPower) : m Bool := do
  if radio.unblocked then
    match ← ops.writeRfkill .bluetooth false with
    | false => return false
    | true =>
      ops.waitMs 100
      return true
  else return true

/-- The rfkill recovery of `request_bluetooth_power_with`. -/
def rfkillRecovery : m Bool := do
  match ← ops.readRfkill .bluetooth with
  | none => return false
  | some radio =>
    if radio.hardBlocked || !radio.writable then return false
    else
      match ← blockEdge ops radio with
      | false => return false
      | true =>
        match ← ops.writeRfkill .bluetooth true with
        | false => return false
        | true => awaitReprobe ops interface 50

/-- `request_bluetooth_power_with`. -/
def requestBluetoothPowerWith (powered : Bool) : m Bool := do
  match ← ops.readInfo interface with
  | some info =>
    if info.powered = powered then return true
    else
      match ← ops.writeManagement interface powered with
      | false => return false
      | true =>
        if powered then awaitPowered ops interface 10
        else
          -- an integrated controller leaves the index list when it is powered off
          match ← ops.readInfo interface with
          | some info => return !info.powered
          | none => ops.indexMissing
  | none =>
    match ← ops.indexMissing with
    | false => return false
    -- A controller that is not there is off.
    | true => if !powered then return true else rfkillRecovery ops interface

end PowerOps

/-- The probes after HCIDEVUP that are left. -/
def awaitRegistered (interface : String) (index : Nat) : Nat → NativeM Bool
  | 0 => do
    bluetoothError .usbRegisterTimeout index
    return false
  | attempts + 1 => do
    match ← bluetoothInfo interface with
    | some info => if info.powered then return true else setBluetoothPower interface true
    | none =>
      call (.wait 50)
      awaitRegistered interface index attempts

/-- `strstr(resolved, "/usb") != NULL`. -/
def isUsbPath (resolved : String) : Bool :=
  resolved.toList.tails.any fun rest => "/usb".toList.isPrefixOf rest

/-- `EALREADY`. -/
def ealready : Int := 114

/-- The registration edge of a USB controller. -/
def usbRegister (interface : String) (index : Nat) : NativeM Bool := do
  match ← call .socket with
  | some code =>
    bluetoothError .usbSocket code
    return false
  | none =>
    let up ← call (.hciDevUp index)
    -- EALREADY says that the device is up.
    match up.filter (· ≠ ealready) with
    | some code =>
      bluetoothError .usbDeviceUp code
      return false
    | none => awaitRegistered interface index 20

/-- The USB path of `request_bluetooth_power`. -/
def usbFallback (interface : String) : NativeM Bool := do
  let g ← get
  match bluetoothIndex interface with
  | none => return false
  | some index =>
    -- Only where other controllers are listed.
    if !g.error.isIndexMissing || !validName interface then return false
    else
      match ← call (.realpath interface) with
      | none => return false
      | some resolved => if !isUsbPath resolved then return false else usbRegister interface index

/-- The operations of `request_bluetooth_power`. -/
def operations : BluetoothPowerOps NativeM where
  readInfo := bluetoothInfo
  writeManagement := setBluetoothPower
  readRfkill := radioPower
  writeRfkill := setRadioPower
  waitMs milliseconds := call (.wait milliseconds)
  indexMissing := do
    let g ← get
    return g.error.isIndexListEmpty

/-- `request_bluetooth_power`. -/
def requestBluetoothPower (interface : String) (powered : Bool) : NativeM Bool := do
  match ← requestBluetoothPowerWith operations interface powered with
  | true => return true
  | false => if !powered then return false else usbFallback interface

/-! ## Requests -/

/-- A row of the device list: a controller and what of it can be changed. -/
structure NativeDevice where
  name : String
  state : Bool
  action : Bool
deriving DecidableEq, Repr

/-- The controllers of `scan_bluetooth`. -/
def scanControllers (rfkillMutable : Bool) : List String → NativeM (List NativeDevice)
  | [] => return []
  | name :: names => do
    let info ← bluetoothInfo name
    let devices ← scanControllers rfkillMutable names
    return ⟨name, rfkillMutable || info.isSome, info.isSome⟩ :: devices

/-- `scan_bluetooth`. -/
def scanBluetooth : NativeM (List NativeDevice) := do
  let names ← listEntries .bluetooth "hci"
  let power ← radioPower .bluetooth
  scanControllers (power.any (·.writable)) names

/-- `scan_devices`, as far as controllers go. The other domains only read, and `slots` is
    what they leave. -/
def scanDevices : NativeM (List NativeDevice) := do
  let slots ← call .slots
  let devices ← scanBluetooth
  return devices.take slots

/-- `find_device` for an id of the domain `bluetooth`. -/
def findDevice (devices : List NativeDevice) (name : String) : Option NativeDevice :=
  if validName name then devices.find? (·.name == name) else none

/-- The values of a controller's state. -/
inductive BluetoothValues where
  | managed (info : BluetoothInfo) (discoveredDevices : List BluetoothFound)
  | fallback (address : Option (List Char)) (radio : Option RadioPower) (indexMissing : Bool)
      (managementError : String)
deriving DecidableEq, Repr

/-- The state that a request returns. -/
structure BluetoothState where
  revision : UInt64
  name : String
  values : BluetoothValues
  state : Bool
  action : Bool
deriving DecidableEq, Repr

/-- `append_state` of a controller. -/
def appendState (device : NativeDevice) : NativeM BluetoothState := do
  match ← bluetoothInfo device.name with
  | some info =>
    let g ← get
    return ⟨g.revision, device.name, .managed info g.found.rows, device.state, device.action⟩
  | none =>
    let address ← readTextFile 129 ⟨.bluetooth, device.name, "address"⟩
    let radio ← radioPower .bluetooth
    let g ← get
    return ⟨g.revision, device.name,
      .fallback address radio g.error.isIndexListEmpty g.error.text, device.state, device.action⟩

/-- How `dispatch` refuses a request. -/
inductive Refusal where
  | badPayload
  | unavailable
  | readOnly
  | internal
deriving DecidableEq, Repr

/-- The requests about a controller. -/
inductive BluetoothRequest where
  | getState (name : String)
  | scan (name : String)
  | setPowered (name : String) (powered : Bool)
deriving DecidableEq, Repr

/-- `build_get_state`. -/
def buildGetState (name : String) : NativeM (Except Refusal BluetoothState) := do
  let devices ← scanDevices
  match findDevice devices name with
  | none => return .error .unavailable
  | some device =>
    let state ← appendState device
    return .ok state

/-- `build_set_state` after the change was made. -/
def changedState (name : String) : NativeM (Except Refusal BluetoothState) := do
  modify fun g => { g with revision := g.revision + 1 }
  let devices ← scanDevices
  match findDevice devices name with
  | none => return .error .internal
  | some device =>
    let state ← appendState device
    return .ok state

/-- `bluetooth_action`: the refusal, if any. -/
def bluetoothAction (device : NativeDevice) : NativeM (Option Refusal) := do
  if !device.action then return some .badPayload
  else
    match ← scanBluetoothDevices device.name with
    | true => return none
    | false => return some .internal

/-- The `powered` change of `build_set_state`: the refusal, if any. -/
def changePowered (device : NativeDevice) (powered : Bool) : NativeM (Option Refusal) := do
  if !device.state then return some .badPayload
  else
    match ← requestBluetoothPower device.name powered with
    | true => return none
    | false => return some .unavailable

/-- `build_set_state`, with the change of a controller. -/
def buildSetState (name : String) (change : NativeDevice → NativeM (Option Refusal)) :
    NativeM (Except Refusal BluetoothState) := do
  let devices ← scanDevices
  match findDevice devices name with
  | none => return .error .unavailable
  | some device =>
    if !device.state && !device.action then return .error .readOnly
    else
      match ← change device with
      | some refusal => return .error refusal
      | none => changedState name

/-- What a request does. -/
def BluetoothRequest.handle : BluetoothRequest → NativeM (Except Refusal BluetoothState)
  | .getState name => buildGetState name
  | .scan name => buildSetState name bluetoothAction
  | .setPowered name powered => buildSetState name fun device => changePowered device powered

end MsysHal.Native

import MsysHal.ForStd.Embed
import MsysHal.Native.Backlight
import MsysHal.Native.Json

/-!
# State requests of the native HAL

`build_set_state` of `native_hal.c` for every kind of device, from the parsed payload to the
text of the response, and what `dispatch` makes of it. The functions of the radios, the
Management client, wpa_supplicant and the backlights run as they are, each with its own
steps among those of the process, and on the globals of the process. The scans of the
other domains are answered by the environment.
-/

namespace MsysHal.Native.Devices

open Interleave (Sig Proc ask within)
open Json (JsonBuffer bufferString)

/-! ## Devices -/

/-- `Device`, with the fields that its kind uses; `maximum` is one that `scan_backlight` takes. -/
inductive Device where
  | power (name : String)
  | thermal (name : String)
  | backlight (device : BacklightDevice) (positive : 1 ≤ device.maximum)
      (bounded : device.maximum < 2 ^ 31)
  | input (name : String)
  | network (device : WifiDevice)
  | bluetooth (device : NativeDevice)
  | rfkill (domain : RadioDomain) (name : String) (writable : Bool)

/-- The name of a radio's domain. -/
def radioDomain : RadioDomain → String
  | .network => "network"
  | .bluetooth => "bluetooth"

def Device.domain : Device → String
  | .power _ => "power"
  | .thermal _ => "thermal"
  | .backlight _ _ _ => "backlight"
  | .input _ => "input"
  | .network _ => "network"
  | .bluetooth _ => "bluetooth"
  | .rfkill domain _ _ => radioDomain domain

def Device.name : Device → String
  | .power name => name
  | .thermal name => name
  | .backlight device _ _ => device.name
  | .input name => name
  | .network device => device.name
  | .bluetooth device => device.name
  | .rfkill _ name _ => name

/-- `mutable & MUTABLE_STATE`. -/
def Device.state : Device → Bool
  | .backlight device _ _ => device.writable
  | .network device => device.state
  | .bluetooth device => device.state
  | .rfkill _ _ writable => writable
  | _ => false

/-- `mutable & MUTABLE_ACTION`. -/
def Device.action : Device → Bool
  | .network device => device.action
  | .bluetooth device => device.action
  | _ => false

/-! ## Steps -/

/-- The steps of the process: the rows of the scans before `scan_bluetooth`, those of
    `scan_rfkill`, an attribute of a power supply or a thermal zone, and the steps of the
    functions that are run. -/
inductive DeviceOp where
  | rows
  | radios
  | attribute (domain name file : String)
  | native (o : NativeOp)
  | wifi (o : WifiOp)
  | backlight (o : BacklightOp)
deriving DecidableEq

/-- The answer of a step. -/
abbrev DeviceOp.Ret : DeviceOp → Type
  | .rows => List Device
  | .radios => List (RadioDomain × String × Bool)
  | .attribute _ _ _ => Option Bytes
  | .native o => o.Ret
  | .wifi o => o.Ret
  | .backlight o => o.Ret

/-- The steps and their answers. -/
abbrev deviceSig : Sig := ⟨DeviceOp, DeviceOp.Ret⟩

/-- A function of the process. -/
abbrev DeviceM := Proc deviceSig Globals

/-- One step. -/
def step (o : DeviceOp) : DeviceM o.Ret := ask (S := deviceSig) o

/-- A function of the Management client and the radios. -/
def native {α : Type} (p : NativeM α) : DeviceM α :=
  within (T := deviceSig) ⟨.native, fun _ r => r⟩ id (fun g' _ => g') p

/-- A function of the wpa_supplicant client. -/
def wifi {α : Type} (p : WifiM α) : DeviceM α :=
  within (T := deviceSig) ⟨.wifi, fun _ r => r⟩ Globals.revision
    (fun revision g => { g with revision := revision }) p

/-- A function of the backlights. -/
def backlight {α : Type} (p : BacklightM α) : DeviceM α :=
  within (T := deviceSig) ⟨.backlight, fun _ r => r⟩ Globals.revision
    (fun revision g => { g with revision := revision }) p

/-! ## The device list -/

/-- `device_compare`. -/
def deviceLe (a b : Device) : Bool :=
  decide (a.domain.toList < b.domain.toList) ||
    (a.domain == b.domain && decide (a.name.toList ≤ b.name.toList))

/-- `scan_devices`: the rows that fit in the list, sorted; rows of the same id stay in their
    order. -/
def scanDevices : DeviceM (List Device) := do
  let before ← step .rows
  let controllers ← native scanBluetooth
  let radios ← step .radios
  let rows := before ++ controllers.map .bluetooth ++ radios.map fun radio =>
    .rfkill radio.1 radio.2.1 radio.2.2
  return (rows.take maxDevices).insertionSort fun a b => deviceLe a b

/-- `find_device`. -/
def findDevice (devices : List Device) (identifier : Bytes) : Option Device :=
  let text := identifier.map fun b => Char.ofNat b.toNat
  match text.dropWhile (· ≠ ':') with
  | [] => none
  | _ :: name =>
    let domain := text.takeWhile (· ≠ ':')
    if domain.isEmpty || !validName (String.ofList name) then none
    else devices.find? fun device => device.domain.toList == domain && device.name.toList == name

/-! ## Changes -/

/-- `sizeof(identifier)`. -/
def identifierCapacity : Nat := 24 + 128 + 2

/-- The device and the changes that a request names. -/
def setStateRequest (root : List (Bytes × JsonToken)) : Option (Bytes × List (Bytes × JsonToken)) :=
  if !objectValidateFields root ["id", "changes"] then none
  else
    match objectField root "id", objectField root "changes" with
    | some id, some (.object changes) =>
      if changes.isEmpty then none else (copyString id identifierCapacity).map fun identifier =>
        (identifier, changes)
    | _, _ => none

/-- `token_bool`. -/
def tokenBool : JsonToken → Option Bool
  | .primitive raw =>
    if raw = ascii "true" then some true else if raw = ascii "false" then some false else none
  | _ => none

/-- The power that a change asks for. -/
def requestedPower (changes : List (Bytes × JsonToken)) : Option Bool :=
  if changes.length ≠ 1 || !objectValidateFields changes ["powered"] then none
  else (objectField changes "powered").bind tokenBool

/-- What a change comes to: a refusal, or the value of `persisted` where it is set. -/
abbrev Changed := Except Failure (Option Bool)

/-- The change of a function that gives a refusal, if any. -/
def Changed.ofRefusal : Option Refusal → Changed
  | some refusal => .error (.refused refusal)
  | none => .ok none

/-- The power of the network radios. -/
def changeNetworkPower (device : WifiDevice) (changes : List (Bytes × JsonToken)) :
    DeviceM Changed :=
  match (requestedPower changes).filter fun _ => device.state with
  | none => return .error (.refused .badPayload)
  | some powered => do
    match ← native (radioPower .network) with
    | none => return .error (.refused .readOnly)
    | some radio =>
      if radio.hardBlocked || !radio.writable then return .error (.refused .readOnly)
      else
        let written ← native (setRadioPower .network powered)
        return if written then .ok none else .error (.refused .internal)

/-- A network interface. -/
def changeNetwork (device : WifiDevice) (changes : List (Bytes × JsonToken)) : DeviceM Changed := do
  if (objectField changes "action").isSome then
    let result ← wifi (wifiAction device changes)
    return result.mapError .refused
  else changeNetworkPower device changes

/-- The checks of `bluetooth_action` on a request. -/
def asksForScan (changes : List (Bytes × JsonToken)) : Bool :=
  decide (changes.length = 1) && objectValidateFields changes ["action"] &&
    ((objectField changes "action").bind fun token => copyString token 32) == some (ascii "scan")

/-- A Bluetooth controller. -/
def changeBluetooth (device : NativeDevice) (changes : List (Bytes × JsonToken)) :
    DeviceM Changed := do
  -- With an action the request is not searched for `powered`.
  if (objectField changes "action").isSome then
    if asksForScan changes then
      let refusal ← native (bluetoothAction device)
      return .ofRefusal refusal
    else return .error (.refused .badPayload)
  else
    match requestedPower changes with
    | none => return .error (.refused .badPayload)
    | some powered =>
      let refusal ← native (changePowered device powered)
      return .ofRefusal refusal

/-- A backlight. -/
def changeBacklight (device : BacklightDevice) (changes : List (Bytes × JsonToken)) :
    DeviceM Changed := do
  match requestedBrightness device.maximum changes with
  | .error failure => return .error failure
  | .ok requested =>
    let written ← backlight (writeBrightness device.name requested)
    return if written then .ok none else .error (.refused .internal)

/-- An rfkill radio. -/
def changeRfkill (name : String) (changes : List (Bytes × JsonToken)) : DeviceM Changed := do
  match requestedPower changes with
  | none => return .error (.refused .badPayload)
  | some powered =>
    let hard ← native (readI64File 0 1 ⟨.rfkill, name, "hard"⟩)
    -- A block that cannot be read counts as one.
    if hard = some 0 then
      let written ← native (writeI64Verified (softFile name) (if powered then 0 else 1))
      return if written then .ok none else .error (.refused .internal)
    else return .error (.refused .readOnly)

/-- The change of a device that can be changed; the other kinds never can. -/
def changeDevice (device : Device) (changes : List (Bytes × JsonToken)) : DeviceM Changed :=
  match device with
  | .network device => changeNetwork device changes
  | .bluetooth device => changeBluetooth device changes
  | .backlight device _ _ => changeBacklight device changes
  | .rfkill _ name _ => changeRfkill name changes
  | _ => return .error (.refused .readOnly)

/-- `build_set_state` up to the change. -/
def change (identifier : Bytes) (changes : List (Bytes × JsonToken)) : DeviceM Changed := do
  let devices ← scanDevices
  match findDevice devices identifier with
  | none => return .error (.refused .unavailable)
  | some device =>
    -- Nothing of the device can be changed.
    if !device.state && !device.action then return .error (.refused .readOnly)
    else changeDevice device changes

/-! ## State -/

/-- What `append_state` reads for its `values`. -/
inductive Values where
  | power (status type : Option (List Char)) (capacity online : Option Int)
  | thermal (type : Option (List Char)) (temp : Option Int)
  | backlight (values : Option BrightnessValues)
  | input
  | network (state : WifiState)
  | bluetooth (state : BluetoothState)
  | rfkill (domain : RadioDomain) (hard soft : Option Int)

/-- The text of an attribute. -/
def readText (domain name file : String) : DeviceM (Option (List Char)) := do
  let data ← step (.attribute domain name file)
  return fileText 129 data

/-- The number of an attribute. -/
def readInteger (domain name file : String) (minimum maximum : Int) : DeviceM (Option Int) := do
  let data ← step (.attribute domain name file)
  return fileI64 minimum maximum data

/-- The values of a device. -/
def readValues (device : Device) (persisted : Option Bool) : DeviceM (Except Failure Values) := do
  match device with
  | .power name =>
    let status ← readText "power" name "status"
    let type ← readText "power" name "type"
    let capacity ← readInteger "power" name "capacity" 0 100
    let online ← readInteger "power" name "online" 0 1
    return .ok (.power status type capacity online)
  | .thermal name =>
    let type ← readText "thermal" name "type"
    let temp ← readInteger "thermal" name "temp" (-273150) 1000000
    return .ok (.thermal type temp)
  | .backlight device _ _ =>
    let values ← backlight (appendBrightness device)
    return values.map .backlight
  | .input _ => return .ok .input
  | .network device =>
    let state ← wifi (appendWifiState device persisted)
    return .ok (.network state)
  | .bluetooth device =>
    let state ← native (appendState device)
    return .ok (.bluetooth state)
  | .rfkill domain name _ =>
    let hard ← native (readI64File 0 1 ⟨.rfkill, name, "hard"⟩)
    let soft ← native (readI64File 0 1 (softFile name))
    return .ok (.rfkill domain hard soft)

/-! ## Text -/

/-- What is written at once: a text as it is, or a string with `buffer_string`. -/
inductive Piece where
  | text (bytes : Bytes)
  | string (bytes : Bytes)

/-- A text of the source. -/
def lit (text : String) : Piece := .text (ascii text)

/-- `true` or `false`. -/
def bool (b : Bool) : Piece := lit (if b then "true" else "false")

/-- `%d`. -/
def int (n : Int) : Piece := lit (toString n)

/-- A member of an object, as its pieces. -/
abbrev Entry := List Piece

/-- `append_text_value`. -/
def textEntry (key : String) (value : Option Bytes) : List Entry :=
  value.toList.map fun value => [.string (ascii key), lit ":", .string value]

/-- `append_integer_value`. -/
def intEntry (key : String) (value : Option Int) : List Entry :=
  value.toList.map fun value => [.string (ascii key), lit ":", int value]

/-- `append_integer_value` of a `boolean_value`. -/
def boolEntry (key : String) (value : Option Int) : List Entry :=
  value.toList.map fun value => [.string (ascii key), lit ":", bool (value != 0)]

/-- The bytes of a text file. -/
def fileBytes (text : Option (List Char)) : Option Bytes :=
  text.map fun text => text.map fun c => c.toNat.toUInt8

/-- Entries with a comma between them. -/
def joined : List Entry → List Piece
  | [] => []
  | [entry] => entry
  | entry :: entries => entry ++ lit "," :: joined entries

/-- `append_radio_power_values`. -/
def radioEntries (radio : Option RadioPower) : List Entry :=
  radio.toList.flatMap fun power =>
    [[lit "\"powered\":", bool power.unblocked], [lit "\"hard_blocked\":", bool power.hardBlocked],
      [lit "\"power_control\":",
        .string (ascii (if power.writable then "writable" else "read-only"))]]

/-- A row of `append_wpa_scan_results`. -/
def scanPieces (row : WifiScanRow) : Entry :=
  [lit "\x7b\"bssid\":", .string row.bssid, lit ",\"frequency_mhz\":", int row.frequencyMhz,
    lit ",\"signal_dbm\":", int row.signalDbm, lit ",\"flags\":", .string row.flags,
    lit ",\"ssid\":", .string row.ssid, lit "\x7d"]

/-- A row of `append_wpa_networks`. -/
def networkPieces (row : WifiNetworkRow) : Entry :=
  [lit "\x7b\"network_id\":", int row.networkId, lit ",\"ssid\":", .string row.ssid,
    lit ",\"bssid\":", .string row.bssid, lit ",\"flags\":", .string row.flags, lit "\x7d"]

/-- `append_wifi_values`. -/
def wifiEntries : WifiValues → List Entry
  | .none => []
  | .unavailable => [[lit "\"wifi_control\":\"unavailable\""],
      [lit "\"wifi_control_reason\":\"wpa-supplicant-control-unavailable\""]]
  | .degraded => [[lit "\"wifi_control\":\"degraded\""],
      [lit "\"wifi_control_reason\":\"wpa-supplicant-control-request-failed\""]]
  | .available status scanResults configuredNetworks =>
    [[lit "\"wifi_control\":\"available\""],
      lit "\"wifi_status\":\x7b" :: (joined (status.map fun field =>
        [.string (ascii field.1), lit ":", .string field.2]) ++ [lit "\x7d"]),
      lit "\"scan_results\":[" :: (joined (scanResults.map scanPieces) ++ [lit "]"]),
      lit "\"configured_networks\":[" ::
        (joined (configuredNetworks.map networkPieces) ++ [lit "]"])]

/-- A row of `append_bluetooth_devices`. -/
def foundPieces (row : BluetoothFound) : Entry :=
  [lit "\x7b\"address\":", .string (ascii row.address), lit ",\"name\":",
    .string (if row.name.isEmpty then ascii row.address else row.name), lit ",\"address_type\":",
    int row.addressType, lit ",\"rssi\":", int row.rssi, lit ",\"pairable\":false\x7d"]

/-- `append_bluetooth_fallback_values`. -/
def fallbackEntries (radio : Option RadioPower) (indexMissing : Bool) : List Entry :=
  (if indexMissing then [[lit "\"powered\":false"], [lit "\"power_state\":\"off\""]]
    else [[lit "\"powered\":null"], [lit "\"power_state\":\"unknown\""]]) ++
  match radio with
  | none => [[lit "\"power_control\":\"unavailable\""]]
  | some radio =>
    [[lit "\"hard_blocked\":", bool radio.hardBlocked],
      [lit "\"rfkill_unblocked\":", bool radio.unblocked],
      [lit "\"rfkill_soft_blocked\":", bool !radio.unblocked],
      [lit "\"power_control\":", .string (ascii (if radio.writable then
        if indexMissing then "rfkill-reprobe" else "rfkill" else "read-only"))]]

/-- The values of a controller. -/
def bluetoothEntries : BluetoothValues → List Entry
  | .managed info found =>
    [[lit "\"address\":", .string (ascii info.address)],
      [lit "\"adapter_name\":", .string info.name],
      [lit "\"powered\":", bool info.powered], [lit "\"discoverable\":", bool info.discoverable],
      [lit "\"hard_blocked\":false"], [lit "\"power_control\":\"management\""],
      [lit "\"management_control\":\"available\""], [lit "\"discovery_control\":\"available\""],
      lit "\"discovered_devices\":[" :: (joined (found.map foundPieces) ++ [lit "]"])]
  | .fallback address radio indexMissing managementError =>
    textEntry "address" (fileBytes address) ++ fallbackEntries radio indexMissing ++
      [[lit "\"management_control\":\"unavailable\""],
        [lit "\"management_reason\":",
          .string (ascii (if indexMissing then "controller-not-registered"
          else "linux-management-control-unavailable"))],
        [lit "\"management_error\":", .string (ascii managementError)],
        [lit "\"discovery_control\":\"unavailable\""]]

/-- The state of a radio, whose power is not that of a controller. -/
def softEntries (domain : RadioDomain) (soft : Int) : List Entry :=
  match domain with
  | .bluetooth => [[lit "\"powered\":null"], [lit "\"rfkill_unblocked\":", bool (soft == 0)],
      [lit "\"rfkill_soft_blocked\":", bool (soft != 0)]]
  | .network => [[lit "\"powered\":", bool (soft == 0)]]

/-- The `kind` of a network interface. -/
def networkKind (device : WifiDevice) : String :=
  if device.isWifi then "wifi" else if device.name = "lo" then "loopback" else "ethernet"

/-- The members of `values`. -/
def Values.entries : Values → List Entry
  | .power status type capacity online =>
    textEntry "status" (fileBytes status) ++ textEntry "type" (fileBytes type) ++
      intEntry "capacity_percent" capacity ++ boolEntry "online" online
  | .thermal type temp =>
    textEntry "type" (fileBytes type) ++ intEntry "temperature_millicelsius" temp
  | .backlight values => values.toList.flatMap fun v =>
      [[lit "\"brightness\":", int v.brightness], [lit "\"brightness_percent\":", int v.percent],
        [lit "\"max_brightness\":", int v.maximum]]
  | .input => [[lit "\"kind\":\"input-event\""]]
  | .network state =>
    [lit "\"kind\":", .string (ascii (networkKind state.device))] ::
      (textEntry "operstate" state.operstate ++ textEntry "address" state.address ++
        boolEntry "carrier" state.carrier ++
        intEntry "mtu" state.mtu ++ radioEntries state.radio ++ wifiEntries state.wifi)
  | .bluetooth state =>
    [[lit "\"kind\":\"controller\""], [lit "\"pairing_available\":false"],
      [lit "\"pairing_reason\":\"pairing-not-supported\""]] ++ bluetoothEntries state.values
  | .rfkill domain hard soft =>
    [lit "\"kind\":\"rfkill\""] ::
      (boolEntry "hard_blocked" hard ++ soft.toList.flatMap (softEntries domain))

/-- `append_mutable`. -/
def mutableEntries (device : Device) : List Entry :=
  (if device.state then
    match device with
    | .backlight _ _ _ => [[lit "\"brightness\""], [lit "\"brightness_percent\""]]
    | _ => [[lit "\"powered\""]]
  else []) ++ if device.action then [[lit "\"action\""]] else []

/-- `append_state`. -/
def statePieces (revision : UInt64) (device : Device) (persisted : Option Bool) (values : Values) :
    List Piece :=
  [lit "\x7b\"schema\":\"org.msys.hal.manager.v1\",\"revision\":", lit (toString revision),
    lit ",\"provider\":\"org.msys.hal.linux:native-manager\",\"state\":\x7b\"id\":",
    .string (ascii (device.domain ++ ":" ++ device.name)), lit ",\"domain\":",
    .string (ascii device.domain), lit ",\"available\":true,\"values\":\x7b"] ++
  joined (values.entries ++ persisted.toList.map fun saved =>
    [lit "\"configuration_persisted\":", bool saved]) ++
  [lit "\x7d,\"mutable\":["] ++ joined (mutableEntries device) ++ [lit "]\x7d\x7d"]

/-- One `buffer_append` or `buffer_string`. -/
def JsonBuffer.write (buffer : JsonBuffer) : Piece → JsonBuffer
  | .text bytes => buffer.append bytes
  | .string bytes => bufferString buffer bytes

/-- `MAX_RESPONSE_JSON`. -/
def maxResponseJson : Nat := 192 * 1024

/-- `buffer_init`: the buffer of a response, where there is memory for it. -/
def bufferInit (allocated : Bool) : JsonBuffer :=
  ⟨[], if allocated then maxResponseJson else 0, !allocated⟩

/-! ## Requests -/

/-- The end of `build_set_state` behind the change. -/
def changedState (allocated : Bool) (identifier : Bytes) (persisted : Option Bool) :
    DeviceM (Except Failure Bytes) := do
  modify fun g => { g with revision := g.revision + 1 }
  let devices ← scanDevices
  match findDevice devices identifier with
  | none => return .error (.refused .internal)
  | some device =>
    let g ← get
    match ← readValues device persisted with
    | .error failure => return .error failure
    | .ok values =>
      let buffer := (statePieces g.revision device persisted values).foldl JsonBuffer.write
        (bufferInit allocated)
      return if buffer.failed then .error (.refused .internal) else .ok buffer.data

/-- `build_set_state` as `dispatch` answers it: the payload is the root object, where there is
    one. -/
def setState (allocated : Bool) (payload : Option (List (Bytes × JsonToken))) :
    DeviceM (Except Failure Bytes) := do
  match payload.bind setStateRequest with
  | none => return .error (.refused .badPayload)
  | some (identifier, changes) =>
    match ← change identifier changes with
    | .error failure => return .error failure
    | .ok persisted => changedState allocated identifier persisted

end MsysHal.Native.Devices

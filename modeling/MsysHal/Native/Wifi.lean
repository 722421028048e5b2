import MsysHal.Native.Power

/-!
# Wi-Fi requests of the native HAL

The wpa_supplicant client of `native_hal.c`, its listing parsers, `wifi_action`, and
the state requests of a network interface from the parsed request on. A C string is a
list of bytes without NUL. A JSON value is the tree of its tokens with the raw text of
each string and primitive. The device scan, the attribute files and the datagrams are
answered by the environment.
-/

namespace MsysHal.Native

open Interleave (Sig Proc ask)

def wpaCommandCapacity : Nat := 4096
def wpaResponseCapacity : Nat := 64 * 1024
def maxWifiScanResults : Nat := 24
def maxWifiNetworks : Nat := 24

/-! ## Requests -/

/-- A token of the request with what is below it. -/
inductive JsonToken where
  | string (raw : Bytes)
  | primitive (raw : Bytes)
  | object (members : List (Bytes × JsonToken))
  | array (items : List JsonToken)

/-- The bytes of an ASCII text. -/
def ascii (text : String) : Bytes := text.toList.map fun c => c.toNat.toUInt8

/-- `object_field`; a key that occurs twice is not found. -/
def objectField (members : List (Bytes × JsonToken)) (key : String) : Option JsonToken :=
  match members.filter fun m => m.1 == ascii key with
  | [m] => some m.2
  | _ => none

/-- `object_validate_fields`. -/
def objectValidateFields (members : List (Bytes × JsonToken)) (allowed : List String) : Bool :=
  members.all (fun m => (allowed.map ascii).contains m.1) && decide (members.map Prod.fst).Nodup

/-- The character of an escape that `copy_string` knows. -/
def escapedByte : UInt8 → Option UInt8
  | 0x22 => some 0x22
  | 0x5c => some 0x5c
  | 0x2f => some 0x2f
  | 0x62 => some 0x08
  | 0x66 => some 0x0c
  | 0x6e => some 0x0a
  | 0x72 => some 0x0d
  | 0x74 => some 0x09
  | _ => none

/-- The loop of `copy_string` and `copy_utf8_string`, with their escapes and the test of
    a byte at a position of the output. -/
def copyFrom (escaped : UInt8 → Option UInt8) (accepts : UInt8 → Nat → Bool) :
    Bytes → Bytes → Option Bytes
  | [], output => some output
  | 0x5c :: [], _ => none
  | 0x5c :: e :: rest, output =>
    match escaped e with
    | none => none
    | some value =>
      if accepts value output.length then copyFrom escaped accepts rest (output ++ [value])
      else none
  | value :: rest, output =>
    if accepts value output.length then copyFrom escaped accepts rest (output ++ [value]) else none

/-- `copy_string`. -/
def copyString (token : JsonToken) (capacity : Nat) : Option Bytes :=
  match token with
  | .string raw =>
    copyFrom escapedByte (fun value position =>
      decide (0x20 ≤ value) && decide (value ≤ 0x7e) && decide (position + 1 < capacity)) raw []
  | _ => none

/-- `utf8_sequence_length`; past the end there is a NUL. -/
def utf8SequenceLength (cursor : Bytes) : Nat :=
  let first := cursor.getD 0 0
  let tail (i : Nat) : Bool := 0x80 ≤ cursor.getD i 0 && cursor.getD i 0 ≤ 0xbf
  if first < 0x80 then 1
  else if 0xc2 ≤ first && first ≤ 0xdf && tail 1 then 2
  else if 0xe0 ≤ first && first ≤ 0xef && tail 1 && tail 2 &&
      !(first == 0xe0 && cursor.getD 1 0 < 0xa0) &&
        !(first == 0xed && cursor.getD 1 0 ≥ 0xa0) then 3
  else if 0xf0 ≤ first && first ≤ 0xf4 && tail 1 && tail 2 && tail 3 &&
      !(first == 0xf0 && cursor.getD 1 0 < 0x90) &&
        !(first == 0xf4 && cursor.getD 1 0 ≥ 0x90) then 4
  else 0

/-- Whether a text is a run of UTF-8 sequences whose first bytes are accepted. -/
def sequencesFrom (accepts : UInt8 → Bool) : Nat → Bytes → Bool
  | _, [] => true
  | 0, _ => false
  | fuel + 1, first :: rest =>
    let length := utf8SequenceLength (first :: rest)
    accepts first && decide (0 < length) && decide (length ≤ (first :: rest).length) &&
      sequencesFrom accepts fuel ((first :: rest).drop length)

/-- `copy_utf8_string`. -/
def copyUtf8String (token : JsonToken) (capacity maximumBytes : Nat) : Option Bytes :=
  match token with
  | .string raw =>
    let escaped (e : UInt8) : Option UInt8 :=
      if e = 0x22 ∨ e = 0x5c ∨ e = 0x2f then some e else none
    let output := copyFrom escaped (fun value position =>
      decide (0x20 ≤ value) && decide (position < maximumBytes) && decide (position + 1 < capacity))
      raw []
    output.filter fun output =>
      sequencesFrom (fun _ => true) output.length output && !output.isEmpty
  | _ => none

/-- `token_i64` of the decimal notation. -/
def tokenI64 (token : JsonToken) : Option Int :=
  match token with
  | .primitive raw =>
    let text := raw.map fun b => Char.ofNat b.toNat
    if raw.isEmpty || decide (raw.length ≥ 64) || text.any fun c => c == '.' || c == 'e' || c == 'E'
    then none
    else parseBounded (-2 ^ 63) (2 ^ 63 - 1) text
  | _ => none

/-! ## Steps -/

/-- A network interface of the device list. -/
structure WifiDevice where
  name : String
  isWifi : Bool
  state : Bool
  action : Bool
deriving DecidableEq, Repr

/-- The steps of a Wi-Fi request: the device scan, the control socket, one datagram
    exchange (`none` where any call of it fails), and the attribute reads of a state. -/
inductive WifiOp where
  | scan
  | available (interface : String)
  | exchange (interface : String) (command : Bytes)
  | text (interface file : String)
  | integer (interface file : String) (minimum maximum : Int)
  | radio
deriving DecidableEq

/-- The answer of a step. -/
abbrev WifiOp.Ret : WifiOp → Type
  | .scan => List WifiDevice
  | .available _ => Bool
  | .exchange _ _ => Option Bytes
  | .text _ _ => Option Bytes
  | .integer _ _ _ _ => Option Int
  | .radio => Option RadioPower

/-- The operations and their answers. -/
abbrev wifiSig : Sig := ⟨WifiOp, WifiOp.Ret⟩

/-- A function of the process; the memory is `revision_number`. -/
abbrev WifiM := Proc wifiSig UInt64

/-- One step. -/
def wifiCall (o : WifiOp) : WifiM o.Ret := ask (S := wifiSig) o

/-! ## The wpa_supplicant client -/

/-- The checks of `wpa_request` on a command. -/
def commandFits (command : Bytes) : Bool :=
  !command.isEmpty && decide (command.length ≤ wpaCommandCapacity) &&
    !command.contains 0x0a && !command.contains 0x0d

/-- What `wpa_request` makes of a datagram: cut to the buffer, without line ends, up to the
    first NUL. -/
def wpaResponse (capacity : Nat) (datagram : Bytes) : Option Bytes :=
  let received := (datagram.take (capacity - 1)).rdropWhile fun b => b == 0x0a || b == 0x0d
  if received.isEmpty then none else some (received.takeWhile (· ≠ 0))

/-- `wpa_request`. -/
def wpaRequest (interface : String) (command : Bytes) (capacity : Nat) : WifiM (Option Bytes) := do
  if !commandFits command then return none
  else
    match ← wifiCall (.exchange interface command) with
    | none => return none
    | some datagram => return wpaResponse capacity datagram

/-- `wpa_ok`. -/
def wpaOk (interface : String) (command : Bytes) : WifiM Bool := do
  let response ← wpaRequest interface command 32
  return response == some (ascii "OK")

/-! ## Listings -/

/-- `strncmp(text, start, strlen(start)) == 0`. -/
def startsWithBytes (start : String) (text : Bytes) : Bool := (ascii start).isPrefixOf text

/-- `copy_wpa_text`. -/
def copyWpaText (field : Bytes) (capacity : Nat) (allowEmpty : Bool) : Option Bytes :=
  if decide (field.length ≥ capacity) || (!allowEmpty && field.isEmpty) then none
  else if sequencesFrom (fun b => decide (0x20 ≤ b) && b != 0x7f) field.length field then some field
  else none

/-- `parse_decimal`. -/
def parseDecimal (text : Bytes) (minimum maximum : Int) : Option Int :=
  if text.isEmpty then none else parseBounded minimum maximum (text.map fun b => Char.ofNat b.toNat)

/-- What stands before the first tab, and what follows it. -/
def cutTab (line : Bytes) : Option (Bytes × Bytes) :=
  match line.dropWhile (· ≠ 0x09) with
  | [] => none
  | _ :: rest => some (line.takeWhile (· ≠ 0x09), rest)

/-- The lines after the first one; `none` where there is no line end. -/
def linesAfterHeader (response : Bytes) : Option (List Bytes) :=
  match response.splitOn 0x0a with
  | _ :: line :: lines => some (line :: lines)
  | _ => none

/-- The id and the SSID that `configured_network_id` reads in a line. -/
def listedNetwork (line : Bytes) : Option (Int × Bytes) := do
  let (id, rest) ← cutTab line
  let (ssid, _) ← cutTab rest
  let id ← copyWpaText id 16 false
  let ssid ← copyWpaText ssid 129 false
  let n ← parseDecimal id 0 4095
  return (n, ssid)

/-- The matches of `configured_network_id`: how many, and the id of the last one. -/
structure Matches where
  networkId : Int
  count : Nat
deriving DecidableEq, Repr

/-- The loop of `configured_network_id`, which stops at the second match. -/
def matchLines (ssid : Bytes) : List Bytes → Matches → Matches
  | [], found => found
  | line :: lines, found =>
    if found.count ≥ 2 then found
    else
      match listedNetwork line with
      | some (n, candidate) =>
        if candidate = ssid then matchLines ssid lines ⟨n, found.count + 1⟩
        else matchLines ssid lines found
      | none => matchLines ssid lines found

/-- What `configured_network_id` makes of the listing. -/
def findMatches (ssid : Bytes) (response : Bytes) : Option Matches :=
  if !startsWithBytes "network id /" response then none
  else (linesAfterHeader response).map fun lines => matchLines ssid lines ⟨-1, 0⟩

/-- `configured_network_id`. -/
def configuredNetworkId (interface : String) (ssid : Bytes) : WifiM (Option Matches) := do
  let response ← wpaRequest interface (ascii "LIST_NETWORKS") wpaResponseCapacity
  return response.bind (findMatches ssid)

/-! ## Credentials -/

/-- `isxdigit` in the C locale. -/
def isXdigit (b : UInt8) : Bool :=
  (0x30 ≤ b && b ≤ 0x39) || (0x41 ≤ b && b ≤ 0x46) || (0x61 ≤ b && b ≤ 0x66)

/-- `valid_psk`. -/
def validPsk (psk : Bytes) : Bool :=
  if psk.length = 64 then psk.all isXdigit
  else decide (8 ≤ psk.length) && decide (psk.length ≤ 63) &&
    psk.all fun b => decide (0x20 ≤ b) && decide (b ≤ 0x7e)

/-- `tolower` in the C locale. -/
def toLowerByte (b : UInt8) : UInt8 := if 0x41 ≤ b && b ≤ 0x5a then b + 0x20 else b

/-- The loop of `psk_argument` for a passphrase. -/
def quoteFrom (capacity : Nat) : Bytes → Bytes → Option Bytes
  | [], output => if output.length + 2 > capacity then none else some (output ++ [0x22])
  | value :: rest, output =>
    if value = 0x22 ∨ value = 0x5c then
      if output.length + 2 ≥ capacity then none
      else quoteFrom capacity rest (output ++ [0x5c, value])
    else if output.length + 1 ≥ capacity then none
    else quoteFrom capacity rest (output ++ [value])

/-- `psk_argument`. -/
def pskArgument (psk : Bytes) (capacity : Nat) : Option Bytes :=
  if !validPsk psk then none
  else if psk.length = 64 then
    if psk.length + 1 > capacity then none else some (psk.map toLowerByte)
  else if capacity < 3 then none
  else quoteFrom capacity psk [0x22]

/-- A digit of `ssid_hex`. -/
def hexDigitByte (n : Nat) : UInt8 := (Python.hexDigit n).toNat.toUInt8

/-- `ssid_hex`. -/
def ssidHex (ssid : Bytes) : Bytes :=
  (ssid.take 32).flatMap fun b => [hexDigitByte (b.toNat / 16), hexDigitByte b.toNat]

/-! ## `wifi_action` -/

/-- What a connect request gives besides the SSID. -/
inductive Credential where
  | omitted
  | openSecurity
  | psk (psk : Bytes)
deriving DecidableEq, Repr

/-- The checks of a connect request before the listing is read. -/
def connectRequest (changes : List (Bytes × JsonToken)) : Option (Bytes × Credential) := do
  let ssid ← (objectField changes "ssid").bind fun token => copyUtf8String token 129 32
  if changes.length < 2 ∨ 3 < changes.length then none
  else
    match objectField changes "psk", objectField changes "security" with
    | some _, some _ => none
    | none, some security =>
      if copyString security 16 = some (ascii "open") then some (ssid, .openSecurity) else none
    | some psk, none => do
      let psk ← copyString psk 65
      if validPsk psk then some (ssid, .psk psk) else none
    | none, none => some (ssid, .omitted)

/-- The command that sets how a new network is protected. -/
def credentialCommand (n : Int) : Credential → Option Bytes
  | .psk psk => (pskArgument psk 132).map fun argument => ascii s!"SET_NETWORK {n} psk " ++ argument
  | _ => some (ascii s!"SET_NETWORK {n} key_mgmt NONE")

/-- `cleanup_network`. -/
def cleanupNetwork (interface : String) (n : Int) : WifiM (Except Refusal (Option Bool)) := do
  let _ ← wpaOk interface (ascii s!"REMOVE_NETWORK {n}")
  return .error .internal

/-- The steps of a new network after its SSID is set. -/
def protectNetwork (interface : String) (n : Int) (credential : Credential) :
    WifiM (Except Refusal (Option Bool)) := do
  match credentialCommand n credential with
  | none => cleanupNetwork interface n
  | some command =>
    if ← wpaOk interface command then
      if ← wpaOk interface (ascii s!"ENABLE_NETWORK {n}") then
        if ← wpaOk interface (ascii s!"SELECT_NETWORK {n}") then
          let saved ← wpaOk interface (ascii "SAVE_CONFIG")
          return .ok (some saved)
        else cleanupNetwork interface n
      else cleanupNetwork interface n
    else cleanupNetwork interface n

/-- `connect` for an SSID that is not configured. -/
def connectNew (interface : String) (ssid : Bytes) (credential : Credential) :
    WifiM (Except Refusal (Option Bool)) := do
  let response ← wpaRequest interface (ascii "ADD_NETWORK") 32
  match response.bind fun text => parseDecimal text 0 4095 with
  | none => return .error .internal
  | some n =>
    if ← wpaOk interface (ascii s!"SET_NETWORK {n} ssid " ++ ssidHex ssid) then
      protectNetwork interface n credential
    else cleanupNetwork interface n

/-- `connect` for a configured network. -/
def connectConfigured (interface : String) (n : Int) : WifiM (Except Refusal (Option Bool)) := do
  if ← wpaOk interface (ascii s!"ENABLE_NETWORK {n}") then
    if ← wpaOk interface (ascii s!"SELECT_NETWORK {n}") then return .ok (some true)
    else return .error .internal
  else return .error .internal

/-- The `connect` action. -/
def connect (interface : String) (changes : List (Bytes × JsonToken)) :
    WifiM (Except Refusal (Option Bool)) := do
  match connectRequest changes with
  | none => return .error .badPayload
  | some (ssid, credential) =>
    match ← configuredNetworkId interface ssid with
    | none => return .error .internal
    | some found =>
      if found.count > 1 then return .error .internal
      else if found.count = 1 then
        if credential = .omitted then connectConfigured interface found.networkId
        else return .error .badPayload
      else if credential = .omitted then return .error .badPayload
      else connectNew interface ssid credential

/-- The `scan` and `disconnect` actions. -/
def trigger (interface command : String) (changes : List (Bytes × JsonToken)) :
    WifiM (Except Refusal (Option Bool)) := do
  if changes.length ≠ 1 then return .error .badPayload
  else if ← wpaOk interface (ascii command) then return .ok none
  else return .error .internal

/-- The network that a `forget` request names. -/
def forgetRequest (changes : List (Bytes × JsonToken)) : Option Int :=
  if changes.length ≠ 2 then none
  else
    ((objectField changes "network_id").bind tokenI64).filter fun n =>
      decide (0 ≤ n) && decide (n ≤ 4095)

/-- The `forget` action. -/
def forget (interface : String) (changes : List (Bytes × JsonToken)) :
    WifiM (Except Refusal (Option Bool)) := do
  match forgetRequest changes with
  | none => return .error .badPayload
  | some n =>
    if ← wpaOk interface (ascii s!"REMOVE_NETWORK {n}") then
      let saved ← wpaOk interface (ascii "SAVE_CONFIG")
      return .ok (some saved)
    else return .error .internal

/-- The action that `wifi_action` is asked for. -/
def requestedAction (device : WifiDevice) (changes : List (Bytes × JsonToken)) : Option Bytes :=
  if !device.action ||
      !objectValidateFields changes ["action", "ssid", "psk", "network_id", "security"] then none
  else (objectField changes "action").bind fun token => copyString token 32

/-- `wifi_action`: the value of `persisted`, where it is set, or the refusal. -/
def wifiAction (device : WifiDevice) (changes : List (Bytes × JsonToken)) :
    WifiM (Except Refusal (Option Bool)) :=
  match requestedAction device changes with
  | none => return .error .badPayload
  | some action =>
    if action = ascii "scan" then trigger device.name "SCAN" changes
    else if action = ascii "disconnect" then trigger device.name "DISCONNECT" changes
    else if action = ascii "forget" then forget device.name changes
    else if action = ascii "connect" then connect device.name changes
    else return .error .badPayload

/-! ## State -/

/-- A row of the scan results. -/
structure WifiScanRow where
  bssid : Bytes
  frequencyMhz : Int
  signalDbm : Int
  flags : Bytes
  ssid : Bytes
deriving DecidableEq, Repr

/-- A row of the configured networks. -/
structure WifiNetworkRow where
  networkId : Int
  ssid : Bytes
  bssid : Bytes
  flags : Bytes
deriving DecidableEq, Repr

/-- The pair that `append_wpa_status` writes for a line. -/
def wpaStatusField (line : Bytes) : Option (String × Bytes) := do
  let keys := ["bssid", "freq", "id", "ip_address", "key_mgmt", "mode", "ssid", "wpa_state"]
  match line.dropWhile (· ≠ 0x3d) with
  | [] => none
  | _ :: value =>
    let key ← keys.find? fun key => ascii key == line.takeWhile (· ≠ 0x3d)
    let value ← copyWpaText value 257 true
    return (key, value)

/-- `append_wpa_status`. -/
def wpaStatus (response : Bytes) : List (String × Bytes) :=
  (response.splitOn 0x0a).filterMap wpaStatusField

/-- The row that `append_wpa_scan_results` writes for a line. -/
def wpaScanRow (line : Bytes) : Option WifiScanRow := do
  let (bssid, rest) ← cutTab line
  let (frequency, rest) ← cutTab rest
  let (signal, rest) ← cutTab rest
  let (flags, ssid) ← cutTab rest
  let bssid ← copyWpaText bssid 257 false
  let frequency ← copyWpaText frequency 257 false
  let signal ← copyWpaText signal 257 false
  let flags ← copyWpaText flags 257 false
  let ssid ← copyWpaText ssid 257 true
  let frequency ← parseDecimal frequency 1 100000
  let signal ← parseDecimal signal (-1000) 1000
  return ⟨bssid, frequency, signal, flags, ssid⟩

/-- The row that `append_wpa_networks` writes for a line. -/
def wpaNetworkRow (line : Bytes) : Option WifiNetworkRow := do
  let (id, rest) ← cutTab line
  let (ssid, rest) ← cutTab rest
  let (bssid, flags) ← cutTab rest
  let id ← copyWpaText id 257 false
  let ssid ← copyWpaText ssid 257 false
  let bssid ← copyWpaText bssid 257 true
  let flags ← copyWpaText flags 257 true
  let n ← parseDecimal id 0 4095
  return ⟨n, ssid, bssid, flags⟩

/-- The rows of a listing with a header, where it has one. -/
def listingRows {α : Type} (header : String) (maximum : Nat) (row : Bytes → Option α)
    (response : Bytes) : List α :=
  if !startsWithBytes header response then []
  else
    match linesAfterHeader response with
    | none => []
    | some lines => (lines.filterMap row).take maximum

/-- What `append_wifi_values` writes. -/
inductive WifiValues where
  | none
  | unavailable
  | degraded
  | available (status : List (String × Bytes)) (scanResults : List WifiScanRow)
      (configuredNetworks : List WifiNetworkRow)
deriving DecidableEq, Repr

/-- `append_wifi_values`. -/
def appendWifiValues (interface : String) : WifiM WifiValues := do
  if ← wifiCall (.available interface) then
    let status ← wpaRequest interface (ascii "STATUS") wpaResponseCapacity
    match status.filter fun text => !startsWithBytes "FAIL" text with
    | none => return .degraded
    | some status =>
      let scan ← wpaRequest interface (ascii "SCAN_RESULTS") wpaResponseCapacity
      let networks ← wpaRequest interface (ascii "LIST_NETWORKS") wpaResponseCapacity
      return .available (wpaStatus status)
        ((scan.map (listingRows "bssid /" maxWifiScanResults wpaScanRow)).getD [])
        ((networks.map (listingRows "network id /" maxWifiNetworks wpaNetworkRow)).getD [])
  else return .unavailable

/-- The state of a network interface. -/
structure WifiState where
  revision : UInt64
  device : WifiDevice
  operstate : Option Bytes
  address : Option Bytes
  carrier : Option Int
  mtu : Option Int
  radio : Option RadioPower
  wifi : WifiValues
  configurationPersisted : Option Bool
deriving DecidableEq, Repr

/-- `append_radio_power_values` and `append_wifi_values`, for a Wi-Fi interface. -/
def wifiPart (device : WifiDevice) : WifiM (Option RadioPower × WifiValues) := do
  if device.isWifi then
    let radio ← wifiCall .radio
    let wifi ← appendWifiValues device.name
    return (radio, wifi)
  else return (none, .none)

/-- `append_state` of a network interface. -/
def appendWifiState (device : WifiDevice) (persisted : Option Bool) : WifiM WifiState := do
  let operstate ← wifiCall (.text device.name "operstate")
  let address ← wifiCall (.text device.name "address")
  let carrier ← wifiCall (.integer device.name "carrier" 0 1)
  let mtu ← wifiCall (.integer device.name "mtu" 68 (2 ^ 31 - 1))
  let (radio, wifi) ← wifiPart device
  let revision ← get
  return ⟨revision, device, operstate, address, carrier, mtu, radio, wifi, persisted⟩

/-! ## State requests -/

/-- `find_device` for an id of the domain `network`. -/
def findWifiDevice (devices : List WifiDevice) (name : String) : Option WifiDevice :=
  if validName name then devices.find? (·.name == name) else none

/-- `build_get_state`. -/
def wifiGetState (name : String) : WifiM (Except Refusal WifiState) := do
  let devices ← wifiCall .scan
  match findWifiDevice devices name with
  | none => return .error .unavailable
  | some device =>
    let state ← appendWifiState device none
    return .ok state

/-- The end of `build_set_state` after an action. -/
def wifiChanged (name : String) (persisted : Option Bool) : WifiM (Except Refusal WifiState) := do
  modify (· + 1)
  let devices ← wifiCall .scan
  match findWifiDevice devices name with
  | none => return .error .internal
  | some device =>
    let state ← appendWifiState device persisted
    return .ok state

/-- `build_set_state` with an action for a network interface. -/
def wifiSetState (name : String) (changes : List (Bytes × JsonToken)) :
    WifiM (Except Refusal WifiState) := do
  let devices ← wifiCall .scan
  match findWifiDevice devices name with
  | none => return .error .unavailable
  | some device =>
    if !device.state && !device.action then return .error .readOnly
    else
      match ← wifiAction device changes with
      | .error refusal => return .error refusal
      | .ok persisted => wifiChanged name persisted

end MsysHal.Native

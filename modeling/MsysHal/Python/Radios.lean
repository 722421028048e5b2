import MsysHal.ForStd.Fields
import MsysHal.ForStd.Prog
import MsysHal.Python.Linux

/-!
# The network backend

`NetworkBackend` of `msys_hal/radios.py` with the wpa_supplicant client
`WpaSupplicantControl`, and the state requests of `ProviderService` over it. What is
below the interface directory and what wpa_supplicant answers is the environment's:
a control socket that is not there, a request that fails, or any datagram.
-/

namespace MsysHal.Network

open Interleave (Sig Prog)
open Python (Value Runtime)
open Python.Text (PrintTable splitMax splitlines decodeReplace)

def maxInterfaces : Nat := 64
def maxScanResults : Nat := 20
def maxConfiguredNetworks : Nat := 16
def maxWpaResponse : Nat := 64 * 1024

/-! ## Steps -/

/-- An entry of the interface directory. -/
structure DirEntry where
  name : List Nat
  isDir : Option Bool
deriving DecidableEq, Repr

/-- What becomes of a control request: no socket to send it to, an `OSError`, or a datagram. -/
inductive Exchange where
  | unavailable
  | failed
  | response (data : ByteArray)
deriving DecidableEq

/-- The steps of the backend. -/
inductive NetOp where
  | entries
  | read (interface file : String)
  | isDir (interface name : String)
  | available (interface : String)
  | exchange (interface command : String)
deriving DecidableEq, Repr

/-- The answer of a step. -/
abbrev NetOp.Ret : NetOp → Type
  | .entries => Option (List DirEntry)
  | .read _ _ => Option ByteArray
  | .isDir _ _ => Bool
  | .available _ => Bool
  | .exchange _ _ => Exchange

/-- The steps and their answers. -/
abbrev netSig : Sig := ⟨NetOp, NetOp.Ret⟩

/-- A method of the backend. -/
abbrev NetworkProg := Prog netSig PyError

/-- One step. -/
def op (o : NetOp) : NetworkProg o.Ret := Prog.perform (S := netSig) o

/-- Raise a `HalError`. -/
def fail {α : Type} (error : HalError) : NetworkProg α := .raise (.hal error)

/-- Raise the error of a check. -/
def check {α : Type} (x : Except HalError α) : NetworkProg α := Prog.ofExcept (x.mapError .hal)

/-- `ReadOnlyError`. -/
def readOnly (message : String) : HalError := ⟨"HAL_READ_ONLY", message, []⟩

/-! ## Interfaces -/

/-- The name of an entry that qualifies. -/
def DirEntry.qualifying (entry : DirEntry) : Option String :=
  if entry.isDir = some true then (entryName entry.name).map (·.1) else none

/-- The names that `_entries` keeps with a limit: of the first entries that qualify, in order. -/
def limitedEntries (limit : Nat) (items : Option (List DirEntry)) : List String :=
  match items with
  | none => []
  | some items => sortStrings ((items.filterMap DirEntry.qualifying).take limit)

/-- The names of the interfaces, `_entries` with the limit of the backend. -/
def entryNames (items : Option (List DirEntry)) : List String :=
  limitedEntries maxInterfaces items

/-- `_device_name`. -/
def deviceName (identifier expected : String) : Except HalError String :=
  match identifier.toList.dropWhile (· ≠ ':') with
  | [] => .error (.validation "device id is invalid")
  | _ :: name =>
    if domainOf identifier ≠ expected || !matchesEntry name then
      .error (.validation s!"device does not belong to {expected}")
    else .ok (String.ofList name)

/-- `NetworkBackend._entry`: the name of the interface. -/
def findEntry (identifier : String) : NetworkProg String := do
  let name ← check (deviceName identifier "network")
  let items ← op .entries
  if (entryNames items).contains name then return name
  else fail (.unavailable "network interface is unavailable" [("id", .str identifier)])

/-- What `_classify_interface` returns. -/
inductive InterfaceKind where
  | loopback
  | wifi
  | wwan
  | ethernet
  | other
deriving DecidableEq, Repr

/-- The kind as the state shows it. -/
def InterfaceKind.text : InterfaceKind → String
  | .loopback => "loopback"
  | .wifi => "wifi"
  | .wwan => "wwan"
  | .ethernet => "ethernet"
  | .other => "other"

/-- Whether a `uevent` text has a line. -/
def hasLine (uevent : Option ByteArray) (line : String) : Bool :=
  (splitlines ((readText 2048 uevent).getD "").toList).contains line.toList

/-- `lowered.startswith(("wwan", "wwp", "rmnet", "ccmni", "pdp"))`. -/
def isWwanName (name : String) : Bool :=
  ["wwan", "wwp", "rmnet", "ccmni", "pdp"].any fun start =>
    start.toList.isPrefixOf (name.toList.map Char.toLower)

/-- `_classify_interface`. -/
def classifyInterface (name : String) : NetworkProg InterfaceKind := do
  let type ← op (.read name "type")
  let interfaceType := readInt 0 65535 type
  if name = "lo" ∨ interfaceType = some 772 then return .loopback
  else
    let uevent ← op (.read name "uevent")
    let wireless ← op (.isDir name "wireless")
    if wireless || hasLine uevent "DEVTYPE=wlan" then return .wifi
    else
      let wwan ← op (.isDir name "wwan")
      if wwan || hasLine uevent "DEVTYPE=wwan" || isWwanName name then return .wwan
      else if interfaceType = some 1 then return .ethernet
      else return .other

/-- `[0-9A-Fa-f]`. -/
def isHex (c : Char) : Bool := isAsciiDigit c || ('a' ≤ c && c ≤ 'f') || ('A' ≤ c && c ≤ 'F')

/-- How many `xx:` stand before the last `xx` of an address. -/
def macGroups : List Char → Option Nat
  | [a, b] => if isHex a && isHex b then some 0 else none
  | a :: b :: ':' :: rest => if isHex a && isHex b then (macGroups rest).map (· + 1) else none
  | _ => none

/-- `(?:[0-9A-Fa-f]{2}:){minimum,maximum}[0-9A-Fa-f]{2}`. -/
def matchesMac (minimum maximum : Nat) (text : List Char) : Bool :=
  (macGroups text).any fun n => decide (minimum ≤ n) && decide (n ≤ maximum)

/-- `[a-z][a-z0-9_-]{0,31}`. -/
def matchesOperstate : List Char → Bool
  | [] => false
  | c :: rest =>
    isLower c && decide (rest.length ≤ 31) &&
      rest.all fun c => isLower c || isAsciiDigit c || c == '_' || c == '-'

/-- `casefold` of an ASCII text. -/
def casefold (text : List Char) : String := String.ofList (text.map Char.toLower)

/-- `_interface_values`. -/
def interfaceValues (name : String) : NetworkProg (InterfaceKind × List (String × Value)) := do
  let kind ← classifyInterface name
  let operstate ← op (.read name "operstate")
  let carrier ← op (.read name "carrier")
  let address ← op (.read name "address")
  let mtu ← op (.read name "mtu")
  let operstate := (readText 32 operstate).filter fun text => matchesOperstate text.toList
  let address := (readText 128 address).filter fun text => matchesMac 5 31 text.toList
  return (kind,
    [("interface", .str name), ("kind", .str kind.text)] ++
    operstate.toList.map (fun text => ("operstate", .str text)) ++
    (readInt 0 1 carrier).toList.map (fun n => ("carrier", .bool (n ≠ 0))) ++
    address.toList.map (fun text => ("address", .str (casefold text.toList))) ++
    (readInt 68 (2 ^ 31 - 1) mtu).toList.map (fun n => ("mtu", .int n)))

/-! ## Control requests -/

/-- The check that `request` makes on a command. -/
def commandValid (command : String) : Bool :=
  !command.isEmpty && decide (String.utf8Len command.toList ≤ 4096) &&
    !command.toList.any fun c => c == '\x00' || c == '\n' || c == '\r'

/-- What `request` makes of a datagram. -/
def responseText (data : ByteArray) : Except HalError (List Char) :=
  if data.size > maxWpaResponse || data.data.toList.contains 0 then
    .error (.provider "wpa_supplicant returned an invalid response")
  else .ok (Python.Text.strip (decodeReplace data))

/-- `WpaSupplicantControl.request`. -/
def request (interface command : String) : NetworkProg (List Char) := do
  if !matchesEntry interface.toList then fail (.validation "network interface is invalid")
  else if !commandValid command then fail (.validation "wpa_supplicant command is invalid")
  else
    match ← op (.exchange interface command) with
    | .unavailable =>
      fail (.unavailable "wpa_supplicant control is unavailable" [("interface", .str interface)])
    | .failed =>
      fail (.unavailable "wpa_supplicant control request failed" [("interface", .str interface)])
    | .response data => check (responseText data)

/-! ## Replies -/

/-- `text.startswith(start)`. -/
def startsWith (start : String) (text : List Char) : Bool := start.toList.isPrefixOf text

/-- `[0-9]{1,maximum}`. -/
def matchesDigits (maximum : Nat) (text : List Char) : Bool :=
  !text.isEmpty && decide (text.length ≤ maximum) && text.all isAsciiDigit

/-- `int(text)` of digits. -/
def digitsValue (text : List Char) : Nat := Nat.ofDigitChars 10 text 0

def statusKeys : List String :=
  ["bssid", "freq", "id", "ip_address", "key_mgmt", "mode", "ssid", "wpa_state"]

/-- `WPA_KEY_RE`: `[a-z0-9_]{1,32}`. -/
def matchesWpaKey (key : List Char) : Bool :=
  !key.isEmpty && decide (key.length ≤ 32) &&
    key.all fun c => isLower c || isAsciiDigit c || c == '_'

section Replies

variable (table : PrintTable)

/-- The field that `_parse_status` makes of a line. -/
def statusField (line : List Char) : Option (String × Value) :=
  match splitMax '=' 1 line with
  | [key, value] =>
    let name := String.ofList key
    if !statusKeys.contains name || !matchesWpaKey key || decide (value.length > 256) then none
    else if ["freq", "id"].contains name && !value.isEmpty && value.all isAsciiDigit then
      some (name, .int (min (digitsValue value) (2 ^ 31 - 1)))
    else if !value.contains '\x00' && table.printable value then
      some (name, .str (String.ofList value))
    else none
  | _ => none

/-- `_parse_status`: a later line replaces the value of an earlier one. -/
def parseStatus (response : List Char) : Except HalError (Dict String Value) :=
  if startsWith "FAIL" response || startsWith "UNKNOWN COMMAND" response then
    .error (.provider "wpa_supplicant status query failed")
  else
    .ok (((splitlines response).take 64).foldl (fun result line =>
      match statusField table line with
      | some (key, value) => result.set key value
      | none => result) Dict.empty)

/-- A row of the scan results. -/
structure ScanRow where
  bssid : String
  frequencyMhz : Nat
  signalDbm : Int
  flags : String
  ssid : String
deriving DecidableEq, Repr

/-- The row as the state shows it. -/
def ScanRow.payload (row : ScanRow) : Value :=
  .object [("bssid", .str row.bssid), ("frequency_mhz", .int row.frequencyMhz),
    ("signal_dbm", .int row.signalDbm), ("flags", .str row.flags), ("ssid", .str row.ssid)]

/-- `-?[0-9]{1,5}` as a number. -/
def signalValue (text : List Char) : Option Int :=
  match text with
  | '-' :: digits => if matchesDigits 5 digits then some (-(digitsValue digits : Int)) else none
  | digits => if matchesDigits 5 digits then some (digitsValue digits) else none

/-- The row that `_parse_scan_results` makes of a line. -/
def scanRow (line : List Char) : Option ScanRow :=
  match splitMax '\t' 4 line with
  | [bssid, frequency, signal, flags, ssid] =>
    if !matchesMac 5 5 bssid || !matchesDigits 10 frequency then none
    else
      match signalValue signal with
      | none => none
      | some signal =>
        if decide (flags.length > 192) || decide (String.utf8Len ssid > 128) ||
            !table.printable flags || !table.printable ssid then none
        else some ⟨casefold bssid, digitsValue frequency, signal, String.ofList flags,
          String.ofList ssid⟩
  | _ => none

/-- The lines of a listing after its header. -/
def listingLines (header : String) (complaint : String) (response : List Char) :
    Except HalError (List (List Char)) :=
  match splitlines response with
  | [] => .error (.provider complaint)
  | first :: lines => if startsWith header first then .ok lines else .error (.provider complaint)

/-- `_parse_scan_results`. -/
def parseScanResults (response : List Char) : Except HalError (List ScanRow) := do
  let lines ← listingLines "bssid /" "wpa_supplicant scan-results query failed" response
  return (lines.take maxScanResults).filterMap (scanRow table)

/-- A row of the configured networks. -/
structure NetworkRow where
  networkId : Nat
  ssid : List Char
  bssid : List Char
  flags : List Char
deriving DecidableEq, Repr

/-- The row as the state shows it. -/
def NetworkRow.payload (row : NetworkRow) : Value :=
  .object [("network_id", .int row.networkId), ("ssid", .str (String.ofList row.ssid)),
    ("bssid", .str (String.ofList row.bssid)), ("flags", .str (String.ofList row.flags))]

/-- The row that `_parse_networks` makes of a line. -/
def networkRow (line : List Char) : Option NetworkRow :=
  match splitMax '\t' 3 line with
  | [id, ssid, bssid, flags] =>
    if !matchesDigits 4 id || decide (digitsValue id > 4095) then none
    else if decide (String.utf8Len ssid > 128) || decide (bssid.length > 64) ||
        decide (flags.length > 192) then none
    else if !table.printable ssid || !table.printable bssid || !table.printable flags then none
    else some ⟨digitsValue id, ssid, bssid, flags⟩
  | _ => none

/-- `_parse_networks`. -/
def parseNetworks (response : List Char) : Except HalError (List NetworkRow) := do
  let lines ← listingLines "network id /" "wpa_supplicant configured-network query failed" response
  return (lines.take maxConfiguredNetworks).filterMap (networkRow table)

/-! ## Requested values -/

/-- `_validate_ssid`. -/
def validateSsid (value : Value) : Except HalError (List Char) :=
  match value with
  | .str s =>
    if s.isEmpty || hasNul s || !table.printable s.toList then
      .error (.validation "ssid must be a non-empty printable string")
    else if String.utf8Len s.toList > 32 then
      .error (.validation "ssid must be at most 32 UTF-8 bytes")
    else .ok s.toList
  -- a lone surrogate is not printable
  | _ => .error (.validation "ssid must be a non-empty printable string")

end Replies

/-- `_validate_psk`. -/
def validatePsk (value : Value) : Except HalError (List Char) :=
  let complaint := "psk must be 8..63 printable ASCII characters or 64 hexadecimal digits"
  match value with
  | .str s =>
    let psk := s.toList
    if psk.length = 64 ∧ psk.all isHex = true then .ok (psk.map Char.toLower)
    else if !(decide (8 ≤ psk.length) && decide (psk.length ≤ 63)) ||
        psk.any fun c => decide (c.toNat < 32) || decide (c.toNat > 126) then
      .error (.validation complaint)
    else .ok psk
  | .lone _ => .error (.validation complaint)
  | _ => .error (.validation "psk must be a string")

/-- `_psk_argument`. -/
def pskArgument (psk : List Char) : String :=
  if psk.length = 64 ∧ psk.all (fun c => isAsciiDigit c || ('a' ≤ c && c ≤ 'f')) = true then
    String.ofList psk
  else
    String.ofList ('"' :: psk.flatMap (fun c =>
      if c = '\\' then ['\\', '\\'] else if c = '"' then ['\\', '"'] else [c]) ++ ['"'])

/-- `ssid.encode("utf-8").hex()`. -/
def ssidHex (ssid : List Char) : String :=
  String.ofList ((ssid.flatMap String.utf8EncodeChar).flatMap fun b =>
    [Python.hexDigit (b.toNat / 16), Python.hexDigit b.toNat])

/-! ## State -/

/-- The arguments of `_state`. -/
structure NetworkState where
  name : String
  values : List (String × Value)
  mutable : List String
deriving Repr

/-- `_state`. -/
def NetworkState.payload (state : NetworkState) : Value :=
  .object [("id", .str ("network:" ++ state.name)), ("domain", .str "network"),
    ("available", .bool true), ("values", .object state.values), ("mutable", strings state.mutable)]

/-- What the three queries of `get_state` give. -/
structure WifiReport where
  status : Dict String Value
  scanResults : List ScanRow
  configuredNetworks : List NetworkRow

/-- The fields of a report. -/
def WifiReport.values (report : WifiReport) : List (String × Value) :=
  [("wifi_control", .str "available"), ("wifi_status", .object report.status.items),
    ("scan_results", .list (report.scanResults.map (·.payload))),
    ("configured_networks", .list (report.configuredNetworks.map (·.payload)))]

/-- `except (ProviderError, UnavailableError)`. -/
def isDegraded : PyError → Bool
  | .hal error => error.code == "HAL_PROVIDER_ERROR" || error.code == "HAL_UNAVAILABLE"
  | .exc _ _ => false

section Backend

variable (table : PrintTable)

/-- The queries of `get_state`. -/
def wifiReport (interface : String) : NetworkProg WifiReport := do
  let status ← request interface "STATUS"
  let status ← check (parseStatus table status)
  let scan ← request interface "SCAN_RESULTS"
  let scan ← check (parseScanResults table scan)
  let networks ← request interface "LIST_NETWORKS"
  let networks ← check (parseNetworks table networks)
  return ⟨status, scan, networks⟩

/-- The fields of a Wi-Fi interface, with what can be changed. -/
def wifiValues (interface : String) : NetworkProg (List (String × Value) × List String) := do
  if ← op (.available interface) then
    match ← (wifiReport table interface).attempt with
    | .ok report => return (report.values, ["action"])
    | .error e =>
      if isDegraded e then return ([("wifi_control", .str "degraded")], [])
      else .raise e
  else return ([("wifi_control", .str "unavailable")], [])

/-- `NetworkBackend.get_state`. -/
def getState (identifier : String) : NetworkProg NetworkState := do
  let name ← findEntry identifier
  let (kind, values) ← interfaceValues name
  if kind = .wifi then
    let (wifi, fields) ← wifiValues table name
    return ⟨name, values ++ wifi, fields⟩
  else return ⟨name, values, []⟩

/-- `_request_ok`. -/
def requestOk (interface command operation : String) : NetworkProg Unit := do
  let reply ← request interface command
  if reply ≠ "OK".toList then fail (.provider s!"wpa_supplicant {operation} failed")
  else return ()

/-- `_configured`. -/
def configured (interface : String) : NetworkProg (List NetworkRow) := do
  let reply ← request interface "LIST_NETWORKS"
  check (parseNetworks table reply)

/-- `_finish_state`. -/
def finishState (identifier : String) (persisted : Option Bool := none) :
    NetworkProg NetworkState := do
  let state ← getState table identifier
  return { state with values := state.values ++
    persisted.toList.map fun persisted => ("configuration_persisted", .bool persisted) }

/-! ## Actions -/

/-- Whether every key is allowed: `set(changes) <= allowed`. -/
def keysWithin (allowed : List String) (changes : List (Value × Value)) : Bool :=
  changes.all fun m => allowed.contains (keyName m.1)

/-- What a new network is protected by. -/
inductive Credential where
  | openSecurity
  | psk (psk : List Char)
deriving DecidableEq, Repr

/-- The `try` block that sets a new network up. -/
def setUpNetwork (interface : String) (n : Nat) (ssid : List Char) (credential : Credential) :
    NetworkProg Unit := do
  requestOk interface s!"SET_NETWORK {n} ssid {ssidHex ssid}" "set SSID"
  match credential with
  | .openSecurity => requestOk interface s!"SET_NETWORK {n} key_mgmt NONE" "set open security"
  | .psk psk => requestOk interface s!"SET_NETWORK {n} psk {pskArgument psk}" "set credentials"
  requestOk interface s!"ENABLE_NETWORK {n}" "enable network"
  requestOk interface s!"SELECT_NETWORK {n}" "select network"

/-- The `except` clause: the network is removed, and the exception goes on. -/
def setUpOrRemove (interface : String) (n : Nat) (ssid : List Char) (credential : Credential) :
    NetworkProg Unit := do
  match ← (setUpNetwork interface n ssid credential).attempt with
  | .ok () => return ()
  | .error e =>
    let _ ← (request interface s!"REMOVE_NETWORK {n}").attempt
    .raise e

/-- The id that `ADD_NETWORK` is answered with. -/
def addedId (reply : List Char) : Option Nat :=
  if !matchesDigits 4 reply || decide (digitsValue reply > 4095) then none
  else some (digitsValue reply)

/-- `connect` for an SSID that is not configured. -/
def connectNew (identifier interface : String) (ssid : List Char) (credential : Credential) :
    NetworkProg NetworkState := do
  let added ← request interface "ADD_NETWORK"
  match addedId added with
  | none => fail (.provider "wpa_supplicant could not allocate a network")
  | some n =>
    setUpOrRemove interface n ssid credential
    let saved ← request interface "SAVE_CONFIG"
    finishState table identifier (some (saved = "OK".toList))

/-- `connect` for a configured network. -/
def connectConfigured (identifier interface : String) (n : Nat) : NetworkProg NetworkState := do
  requestOk interface s!"ENABLE_NETWORK {n}" "enable network"
  requestOk interface s!"SELECT_NETWORK {n}" "select network"
  finishState table identifier (some true)

/-- What a connect request asks for, before the SSID is read. -/
def connectFields (changes : List (Value × Value)) :
    Except HalError (Value × Option Value × Bool) :=
  let security := Value.lookup "security" changes
  let isOpen := security.any (Value.isKey "open")
  match Value.lookup "ssid" changes with
  | none => .error (.validation "connect accepts action, ssid, and psk or open security")
  | some ssid =>
    let psk := Value.lookup "psk" changes
    if !keysWithin ["action", "ssid", "psk", "security"] changes then
      .error (.validation "connect accepts action, ssid, and psk or open security")
    else if psk.isSome && security.isSome then
      .error (.validation "connect cannot combine psk and security")
    else if security.isSome && !isOpen then
      .error (.validation "security must be open when present")
    else .ok (ssid, psk, isOpen)

/-- The credential of a new network. -/
def newCredential (psk : Option Value) (isOpen : Bool) : Except HalError Credential :=
  match isOpen, psk with
  | true, _ => .ok .openSecurity
  | false, none => .error (.validation "an unconfigured secured network requires psk")
  | false, some psk => (validatePsk psk).map .psk

/-- The `connect` action. -/
def connect (identifier interface : String) (changes : List (Value × Value)) :
    NetworkProg NetworkState := do
  let (ssid, psk, isOpen) ← check (connectFields changes)
  let ssid ← check (validateSsid table ssid)
  let rows ← configured table interface
  match rows.filter (·.ssid = ssid) with
  | [] =>
    let credential ← check (newCredential psk isOpen)
    connectNew table identifier interface ssid credential
  | [row] =>
    if psk.isSome || isOpen then
      fail (.validation "credentials must be omitted for a configured network")
    else connectConfigured table identifier interface row.networkId
  | _ => fail (.provider "multiple configured networks have the requested SSID")

/-- The rows that a `forget` request names. -/
def forgotten (changes : List (Value × Value)) (rows : List NetworkRow) :
    Except HalError (List NetworkRow) :=
  match Value.lookup "network_id" changes with
  | some value => do
    let n ← integer value "network_id" 0 4095
    return rows.filter fun row => (row.networkId : Int) = n
  | none => do
    let ssid ← validateSsid table ((Value.lookup "ssid" changes).getD .null)
    return rows.filter (·.ssid = ssid)

/-- The `forget` action. -/
def forget (identifier interface : String) (changes : List (Value × Value)) :
    NetworkProg NetworkState := do
  if !keysWithin ["action", "network_id", "ssid"] changes then
    fail (.validation "forget accepts only action and network_id or ssid")
  else if (Value.lookup "network_id" changes).isSome = (Value.lookup "ssid" changes).isSome then
    fail (.validation "forget requires exactly one of network_id or ssid")
  else
    let rows ← configured table interface
    let rows ← check (forgotten table changes rows)
    match rows with
    | [row] =>
      requestOk interface s!"REMOVE_NETWORK {row.networkId}" "forget network"
      let saved ← request interface "SAVE_CONFIG"
      finishState table identifier (some (saved = "OK".toList))
    | _ => fail (.validation "configured network does not resolve uniquely")

/-- The `scan` and `disconnect` actions. -/
def trigger (identifier interface action command : String) (changes : List (Value × Value)) :
    NetworkProg NetworkState := do
  if !keysWithin ["action"] changes then
    fail (.validation s!"{action} does not accept additional fields")
  else
    requestOk interface command action
    finishState table identifier

/-- The actions of `set_state`. -/
def act (identifier interface : String) (changes : List (Value × Value)) :
    NetworkProg NetworkState :=
  match Value.lookup "action" changes with
  | some (.str "scan") => trigger table identifier interface "scan" "SCAN" changes
  | some (.str "disconnect") => trigger table identifier interface "disconnect" "DISCONNECT" changes
  | some (.str "connect") => connect table identifier interface changes
  | some (.str "forget") => forget table identifier interface changes
  | some (.str _) | some (.lone _) =>
    fail (.validation "network action must be scan, connect, disconnect or forget")
  | _ => fail (.validation "network changes require an action")

/-- `NetworkBackend.set_state`. -/
def setState (identifier : String) (changes : List (Value × Value)) : NetworkProg NetworkState := do
  let name ← findEntry identifier
  let kind ← classifyInterface name
  if kind ≠ .wifi then fail (readOnly "non-Wi-Fi network interfaces are read-only")
  else if ← op (.available name) then act table identifier name changes
  else fail (.unavailable "wpa_supplicant control is unavailable" [("id", .str identifier)])

end Backend

/-! ## The provider -/

/-- The reply of `ProviderService` to a state request. -/
def stateReply (providerId : String) (state : NetworkState) : List (Value × Value) :=
  [(.str "schema", .str providerInterface), (.str "provider", .str providerId),
    (.str "state", state.payload)]

/-- `_backend_for` of a service with this backend. -/
def backendFor (rt : Runtime) (identifier : String) : Except HalError Unit :=
  if domainOf identifier = "network" then .ok ()
  else
    let name := rt.reprOf (domainOf identifier)
    .error (.validation s!"provider does not implement domain {name}")

/-- The checks of a `get_state` request. -/
def getRequest (rt : Runtime) (payload : Value) : Except HalError String := do
  let request ← objectPayload payload ["id"] ["id"]
  let identifier ← deviceId ((Value.lookup "id" request).getD .null)
  backendFor rt identifier
  return identifier

/-- The checks of a `set_state` request. -/
def setRequest (rt : Runtime) (payload : Value) :
    Except HalError (String × List (Value × Value)) := do
  let request ← objectPayload payload ["id", "changes"] ["id", "changes"]
  let identifier ← deviceId ((Value.lookup "id" request).getD .null)
  let requested ← MsysHal.changes ((Value.lookup "changes" request).getD .null)
  backendFor rt identifier
  return (identifier, requested)

/-- `ProviderService.handle("get_state", payload)`. -/
def handleGet (rt : Runtime) (table : PrintTable) (providerId : String) (payload : Value) :
    NetworkProg (List (Value × Value)) := do
  let identifier ← check (getRequest rt payload)
  let state ← getState table identifier
  return stateReply providerId state

/-- `ProviderService.handle("set_state", payload)`. -/
def handleSet (rt : Runtime) (table : PrintTable) (providerId : String) (payload : Value) :
    NetworkProg (List (Value × Value)) := do
  let (identifier, requested) ← check (setRequest rt payload)
  let state ← setState table identifier requested
  return stateReply providerId state

end MsysHal.Network

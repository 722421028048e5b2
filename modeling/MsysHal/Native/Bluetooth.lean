import MsysHal.ForStd.Stateful
import MsysHal.Python.Validation

/-!
# Bluetooth of the native HAL

The Linux Management client of `native/src/native_hal.c`: packets, the retry loop
of a command, the index list, controller information, power and discovery, with
the rfkill and sysfs reads of the power path. The process keeps the last error
text and the table of discovered devices as globals; everything else a step needs
(datagrams, timeouts, errors of system calls, contents of files) is answered by
the environment, in any way. A character of a C string stands for a byte.
-/

namespace MsysHal.Native

open Interleave (Sig Proc ask)

/-! ## Packets -/

/-- The bytes of a buffer. -/
abbrev Bytes := List UInt8

/-- `read_le16(data + i)`. -/
def readLe16 (data : Bytes) (i : Nat) : Nat :=
  (data.getD i 0).toNat + 256 * (data.getD (i + 1) 0).toNat

/-- `read_le32(data + i)`. -/
def readLe32 (data : Bytes) (i : Nat) : Nat := readLe16 data i + 65536 * readLe16 data (i + 2)

def mgmtEvCmdComplete : Nat := 0x0001
def mgmtEvCmdStatus : Nat := 0x0002
def mgmtEvDeviceFound : Nat := 0x0012
def mgmtOpReadIndexList : Nat := 0x0003
def mgmtOpReadInfo : Nat := 0x0004
def mgmtOpSetPowered : Nat := 0x0005
def mgmtOpStartDiscovery : Nat := 0x0023
def mgmtOpStopDiscovery : Nat := 0x0024
def mgmtPacketCapacity : Nat := 4096
def hciDevNone : Nat := 0xffff
def maxEntries : Nat := 128
def maxBluetoothDiscovered : Nat := 24

/-- An upper-case hexadecimal digit. -/
def hexDigit (n : Nat) : Char := "0123456789ABCDEF".toList.getD n '0'

/-- `%02X`. -/
def hexByte (b : UInt8) : List Char := [hexDigit (b.toNat / 16), hexDigit (b.toNat % 16)]

/-- `bluetooth_address`: the six bytes, last one first. -/
def bluetoothAddress (value : Bytes) : String :=
  String.ofList ([':'].intercalate ([5, 4, 3, 2, 1, 0].map fun i => hexByte (value.getD i 0)))

/-- A byte of a name as it is stored: no control character. -/
def nameByte (b : UInt8) : UInt8 := if b < 0x20 ∨ b = 0x7f then 0x20 else b

/-- The fields of `bluetooth_name_from_eir` that are left; each takes one unit of fuel
    and at least two bytes. -/
def nameFromFields : Nat → Bytes → Bytes → Bytes
  | 0, _, output => output
  | _ + 1, [], output => output
  | fuel + 1, n :: rest, output =>
    -- A field that reaches behind the data ends the loop.
    if n = 0 ∨ n.toNat > rest.length then output
    else
      let type := rest.getD 0 0
      if (type = 0x08 ∨ type = 0x09) ∧ n > 1 then
        let name := (((rest.take n.toNat).drop 1).take 63).map nameByte
        -- A complete name is final, a shortened one stands until there is a complete one.
        if type = 0x09 then name else nameFromFields fuel (rest.drop n.toNat) name
      else nameFromFields fuel (rest.drop n.toNat) output

/-- `bluetooth_name_from_eir`. -/
def bluetoothNameFromEir (eir : Bytes) : Bytes := nameFromFields eir.length eir []

/-- A row of `bluetooth_found`. -/
structure BluetoothFound where
  address : String
  name : Bytes
  addressType : Nat
  rssi : Int
deriving DecidableEq, Repr

/-- `bluetooth_found` and its count: a bounded table with one row for each address. -/
structure FoundTable where
  rows : List BluetoothFound
  bounded : rows.length ≤ maxBluetoothDiscovered
  distinct : (rows.map (·.address)).Nodup

/-- `bluetooth_found_count = 0u`. -/
def FoundTable.empty : FoundTable := ⟨[], Nat.zero_le _, List.nodup_nil⟩

/-- A newer report of a device that is in the table. -/
def BluetoothFound.update (row : BluetoothFound) (name : Bytes) (rssi : Int) : BluetoothFound :=
  { row with rssi := rssi, name := if name.isEmpty then row.name else name }

/-- `(int)(int8_t)b`. -/
def signedByte (b : UInt8) : Int := if b < 0x80 then b.toNat else (b.toNat : Int) - 256

/-- The row of a report: `none` for one that is too short or whose EIR does not fit. -/
def foundRow (packet : Bytes) : Option BluetoothFound :=
  if packet.length < 14 then none
  else if readLe16 packet 12 > packet.length - 14 then none
  else some {
    address := bluetoothAddress packet
    name := bluetoothNameFromEir ((packet.drop 14).take (readLe16 packet 12))
    addressType := (packet.getD 6 0).toNat
    rssi := signedByte (packet.getD 7 0) }

/-- The table with a row: an address that is known is updated, a new one is appended
    while there is room. -/
def FoundTable.insert (table : FoundTable) (row : BluetoothFound) : FoundTable :=
  if hknown : row.address ∈ table.rows.map (·.address) then
    { rows := table.rows.map fun r =>
        if r.address = row.address then r.update row.name row.rssi else r
      bounded := by rw [List.length_map]; exact table.bounded
      distinct := by
        have h : ((fun r : BluetoothFound => r.address) ∘ fun r =>
            if r.address = row.address then r.update row.name row.rssi else r) =
            fun r => r.address := by
          funext r
          dsimp only [Function.comp]
          split <;> rfl
        rw [List.map_map, h]
        exact table.distinct }
  else if hfull : table.rows.length ≥ maxBluetoothDiscovered then table
  else
    { rows := table.rows ++ [row]
      bounded := by rw [List.length_append, List.length_singleton]; omega
      distinct := by
        rw [List.map_append, List.nodup_append]
        refine ⟨table.distinct, List.nodup_singleton _, ?_⟩
        intro a ha b hb
        rw [List.map_cons, List.map_nil, List.mem_singleton] at hb
        exact fun h => hknown (hb ▸ h ▸ ha) }

/-- `remember_bluetooth_found`. -/
def rememberBluetoothFound (table : FoundTable) (packet : Bytes) : FoundTable :=
  match foundRow packet with
  | none => table
  | some row => table.insert row

/-! ## Globals -/

/-- Where the Management client fails. -/
inductive Stage where
  | socket
  | bind
  | poll
  | recv
  | length
  | status
  | send
  | indexList
  | indexMissing
  | readInfo
  | usbSocket
  | usbDeviceUp
  | usbRegisterTimeout
deriving DecidableEq, Repr

/-- The text of a stage. -/
def Stage.name : Stage → String
  | .socket => "socket"
  | .bind => "bind"
  | .poll => "poll"
  | .recv => "recv"
  | .length => "length"
  | .status => "status"
  | .send => "send"
  | .indexList => "index-list"
  | .indexMissing => "index-missing"
  | .readInfo => "read-info"
  | .usbSocket => "usb-socket"
  | .usbDeviceUp => "usb-device-up"
  | .usbRegisterTimeout => "usb-register-timeout"

/-- `bluetooth_management_error`. -/
inductive ManagementError where
  | notProbed
  | none
  | failed (stage : Stage) (code : Int)
deriving DecidableEq, Repr

/-- The text that is stored. -/
def ManagementError.text : ManagementError → String
  | .notProbed => "not-probed"
  | .none => "none"
  | .failed stage code => stage.name ++ ":" ++ toString code

/-- `bluetooth_management_index_missing`. -/
def ManagementError.isIndexListEmpty (error : ManagementError) : Bool :=
  error.text == "index-list:0"

/-- `strncmp(bluetooth_management_error, "index-missing:", 14u) == 0`. -/
def ManagementError.isIndexMissing (error : ManagementError) : Bool :=
  "index-missing:".toList.isPrefixOf error.text.toList

/-- The globals of the process that Bluetooth requests use. -/
structure Globals where
  error : ManagementError := .notProbed
  found : FoundTable := .empty
  revision : UInt64 := 0

/-! ## Steps -/

/-- What `poll` and `recv` give: nothing to read, an error of `recv`, or a datagram. -/
inductive Received where
  | idle (code : Int)
  | failed (code : Int)
  | packet (data : Bytes)
deriving DecidableEq, Repr

/-- The class directories. -/
inductive SysClass where
  | rfkill
  | bluetooth
deriving DecidableEq, Repr

/-- An attribute file below an entry of a class directory. -/
structure SysFile where
  root : SysClass
  name : String
  file : String
deriving DecidableEq, Repr

/-- The system calls of the process. A command is sent as its three parts; a receive
    names what it waits for and the room for the reply. `rounds` tells how often the
    clock is still below the limit of a discovery, and `slots` how many rows the scans
    of the other domains leave in the device list. -/
inductive NativeOp where
  | socket
  | bind
  | send (opcode index : Nat) (payload : Bytes)
  | receive (timeout opcode index : Nat) (capacity : Option Nat)
  | rounds
  | wait (milliseconds : Nat)
  | list (root : SysClass)
  | read (file : SysFile)
  | writable (file : SysFile)
  | write (file : SysFile) (value : Int)
  | realpath (interface : String)
  | hciDevUp (index : Nat)
  | slots
deriving DecidableEq

/-- The answer of a step: `errno` where a call fails, the entries of a directory with
    whether `stat` finds a directory. -/
abbrev NativeOp.Ret : NativeOp → Type
  | .socket => Option Int
  | .bind => Option Int
  | .send _ _ _ => Option Int
  | .receive _ _ _ _ => Received
  | .rounds => Nat
  | .wait _ => Unit
  | .list _ => Option (List (String × Bool))
  | .read _ => Option Bytes
  | .writable _ => Bool
  | .write _ _ => Bool
  | .realpath _ => Option String
  | .hciDevUp _ => Option Int
  | .slots => Nat

/-- The operations and their answers. -/
abbrev nativeSig : Sig := ⟨NativeOp, NativeOp.Ret⟩

/-- A function of the process. -/
abbrev NativeM := Proc nativeSig Globals

/-- One step. -/
def call (o : NativeOp) : NativeM o.Ret := ask (S := nativeSig) o

/-- `bluetooth_error`. -/
def bluetoothError (stage : Stage) (code : Int) : NativeM Unit :=
  modify fun g => { g with error := .failed stage code }

/-! ## Numbers and names -/

/-- `isspace` in the C locale. -/
def isSpaceC (c : Char) : Bool := c == ' ' || (9 ≤ c.toNat && c.toNat ≤ 13)

/-- `strtol` with base 10 of a text that has to be used up; `none` where no digit is
    found or something follows. -/
def strtol (text : List Char) : Option Int :=
  let digits (text : List Char) : Option Nat :=
    if text.isEmpty || !text.all isAsciiDigit then none else some (Nat.ofDigitChars 10 text 0)
  match text.dropWhile isSpaceC with
  | '-' :: rest => (digits rest).map fun n => -(n : Int)
  | '+' :: rest => (digits rest).map fun n => (n : Int)
  | rest => (digits rest).map fun n => (n : Int)

/-- `strtol` within bounds. The bounds are those of the type or narrower, so a number that
    overflows is outside them. -/
def parseBounded (minimum maximum : Int) (text : List Char) : Option Int :=
  (strtol text).filter fun n => decide (minimum ≤ n) && decide (n ≤ maximum)

/-- `bluetooth_index`. -/
def bluetoothIndex (interface : String) : Option Nat :=
  if "hci".toList.isPrefixOf interface.toList then
    (parseBounded 0 65534 (interface.toList.drop 3)).map Int.toNat
  else none

/-- `isalnum` in the C locale. -/
def isAlnumC (c : Char) : Bool := isLower c || isUpper c || isAsciiDigit c

/-- `valid_name`. -/
def validName (name : String) : Bool :=
  (name.toList.head?.any isAlnumC) &&
    name.toList.all (fun c => isAlnumC c || c == '.' || c == '_' || c == '-') &&
    decide (name.toList.length ≤ 128)

/-! ## The Management socket -/

/-- `bluetooth_socket`. -/
def bluetoothSocket : NativeM Bool := do
  match ← call .socket with
  | some code =>
    bluetoothError .socket code
    return false
  | none =>
    match ← call .bind with
    | some code =>
      bluetoothError .bind code
      return false
    | none => return true

/-- What `receive_mgmt_event` makes of a datagram. -/
inductive Datagram where
  | rejected (stage : Stage) (code : Int)
  | found (payload : Bytes)
  | unrelated
  | oversized
  | reply (data : Bytes)
deriving DecidableEq, Repr

/-- The checks of `receive_mgmt_event` on a datagram; `recv` cuts it to the buffer. -/
def classify (opcode index : Nat) (capacity : Option Nat) (datagram : Bytes) : Datagram :=
  let packet := datagram.take mgmtPacketCapacity
  let event := readLe16 packet 0
  let payload := packet.drop 6
  if packet.length < 6 then .rejected .recv packet.length
  else if readLe16 packet 4 ≠ payload.length then .rejected .length (readLe16 packet 4)
  else if event = mgmtEvDeviceFound ∧ readLe16 packet 2 = index then .found payload
  -- Another controller, or an answer to another command.
  else if readLe16 packet 2 ≠ index ∨ payload.length < 3 ∨
      (event ≠ mgmtEvCmdComplete ∧ event ≠ mgmtEvCmdStatus) ∨ readLe16 payload 0 ≠ opcode then
    .unrelated
  else if payload.getD 2 0 ≠ 0 then .rejected .status (payload.getD 2 0).toNat
  else if event = mgmtEvCmdComplete then
    -- A reply that is too long fails without a text.
    if capacity.any (· < payload.length - 3) then .oversized else .reply (payload.drop 3)
  else .reply []

/-- The results of `receive_mgmt_event`: 0, -1, 2, and 1 with the reply. -/
inductive EventResult where
  | timeout
  | failed
  | other
  | reply (data : Bytes)
deriving DecidableEq, Repr

/-- `receive_mgmt_event`. -/
def receiveMgmtEvent (timeout opcode index : Nat) (capacity : Option Nat) :
    NativeM EventResult := do
  match ← call (.receive timeout opcode index capacity) with
  | .idle code =>
    bluetoothError .poll code
    return .timeout
  | .failed code =>
    bluetoothError .recv code
    return .failed
  | .packet data =>
    match classify opcode index capacity data with
    | .rejected stage code =>
      bluetoothError stage code
      return .failed
    | .found payload =>
      modify fun g => { g with found := rememberBluetoothFound g.found payload }
      return .other
    | .unrelated => return .other
    | .oversized => return .failed
    | .reply data => return .reply data

/-- The attempts of `mgmt_command` that are left. -/
def awaitReply (opcode index : Nat) (capacity : Option Nat) : Nat → NativeM (Option Bytes)
  | 0 => return none
  | attempts + 1 => do
    match ← receiveMgmtEvent 250 opcode index capacity with
    | .reply data => return some data
    | .failed => return none
    -- A timeout and any other datagram use up an attempt.
    | .timeout => awaitReply opcode index capacity attempts
    | .other => awaitReply opcode index capacity attempts

/-- `mgmt_command`: the reply without its header. -/
def mgmtCommand (opcode index : Nat) (payload : Bytes) (capacity : Option Nat) :
    NativeM (Option Bytes) := do
  -- There is room for 58 bytes behind the header.
  if payload.length > 58 then return none
  else
    match ← call (.send opcode index payload) with
    | some code =>
      bluetoothError .send code
      return none
    | none => awaitReply opcode index capacity 12

/-- What `mgmt_controller_index` makes of the index list. -/
inductive IndexList where
  | short
  | rejected (stage : Stage) (code : Int)
  | selected
deriving DecidableEq, Repr

/-- The indices of a list. -/
def listedIndices (response : Bytes) : List Nat :=
  (List.range (readLe16 response 0)).map fun i => readLe16 response (2 + i * 2)

/-- The checks of `mgmt_controller_index` on the reply. -/
def selectIndex (preferred : Nat) (response : Bytes) : IndexList :=
  let count := readLe16 response 0
  if response.length < 2 then .short
  -- A list that is empty, too long, or shorter than it says.
  else if count = 0 ∨ count > maxEntries ∨ response.length < 2 + count * 2 then
    .rejected .indexList count
  else if (listedIndices response).contains preferred then .selected
  else .rejected .indexMissing preferred

/-- `mgmt_controller_index`. -/
def mgmtControllerIndex (preferred : Nat) : NativeM Bool := do
  match ← mgmtCommand mgmtOpReadIndexList hciDevNone [] (some (2 + maxEntries * 2)) with
  | none => return false
  | some response =>
    match selectIndex preferred response with
    | .short => return false
    | .rejected stage code =>
      bluetoothError stage code
      return false
    | .selected => return true

/-- `BluetoothInfo`. -/
structure BluetoothInfo where
  index : Nat
  powered : Bool
  discoverable : Bool
  address : String
  name : Bytes
deriving DecidableEq, Repr

/-- The controller information of a reply to Read Info. -/
def readInfoReply (index : Nat) (response : Bytes) : BluetoothInfo where
  index := index
  powered := (readLe32 response 13).testBit 0
  discoverable := (readLe32 response 13).testBit 3
  address := bluetoothAddress response
  name := ((response.drop 20).takeWhile (· ≠ 0)).take 63

/-- The end of a `bluetooth_info` that fails after it has a socket: the text of a process
    that has not probed yet is replaced. -/
def infoFailed (responseLength : Nat) : NativeM (Option BluetoothInfo) := do
  let g ← get
  if g.error.text = "not-probed" then
    bluetoothError .readInfo responseLength
    return none
  else return none

/-- `bluetooth_info`. -/
def bluetoothInfo (interface : String) : NativeM (Option BluetoothInfo) := do
  match bluetoothIndex interface with
  | none => return none
  | some preferred =>
    match ← bluetoothSocket with
    | false => return none
    | true =>
      match ← mgmtControllerIndex preferred with
      | false => infoFailed 0
      | true =>
        match ← mgmtCommand mgmtOpReadInfo preferred [] (some 512) with
        | none => infoFailed 0
        | some response =>
          if response.length < 20 then infoFailed response.length
          else
            modify fun g => { g with error := .none }
            return some (readInfoReply preferred response)

/-- `set_bluetooth_power`. -/
def setBluetoothPower (interface : String) (powered : Bool) : NativeM Bool := do
  match ← bluetoothInfo interface with
  | none => return false
  | some info =>
    match ← bluetoothSocket with
    | false => return false
    | true =>
      let reply ← mgmtCommand mgmtOpSetPowered info.index [if powered then 1 else 0] none
      return reply.isSome

/-- The receives of a discovery. -/
def discover (index : Nat) : Nat → NativeM Unit
  | 0 => return ()
  | rounds + 1 => do
    let _ ← receiveMgmtEvent 180 0xffff index none
    discover index rounds

/-- `scan_bluetooth_devices`: the loop runs at least once. -/
def scanBluetoothDevices (interface : String) : NativeM Bool := do
  match ← bluetoothInfo interface with
  | none => return false
  | some info =>
    if !info.powered then return false
    else
      match ← bluetoothSocket with
      | false => return false
      | true =>
        -- The table shows the last discovery only.
        modify fun g => { g with found := .empty }
        match ← mgmtCommand mgmtOpStartDiscovery info.index [0x07] none with
        | none => return false
        | some _ =>
          let rounds ← call .rounds
          discover info.index (rounds + 1)
          let _ ← mgmtCommand mgmtOpStopDiscovery info.index [0x07] none
          return true

end MsysHal.Native

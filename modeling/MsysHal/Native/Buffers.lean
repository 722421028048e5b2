import MsysHal.Native.Wifi

/-!
# Fixed buffers of the native HAL

Functions of `native_hal.c` that work on an array of characters in place:
`storage_decode_mount_path`, `storage_slug`, `bluetooth_name_from_eir`, the reader of
Management packets, and `read_text_file` with the scans that show its text. A buffer is the list of
its bytes. A load or a store outside of it is undefined behaviour: there is no result.
-/

namespace MsysHal.Native

/-- The text of the C string that a buffer starts with. -/
def cText (buffer : Bytes) : Bytes := buffer.takeWhile (· ≠ 0)

/-- The characters of a text. -/
def charsOf (text : Bytes) : List Char := text.map fun b => Char.ofNat b.toNat

/-- `buffer[i] = b`. -/
def store (buffer : Bytes) (i : Nat) (b : UInt8) : Option Bytes :=
  if i < buffer.length then some (buffer.set i b) else none

/-- A store at the end of what is written already. -/
theorem take_set_succ {buffer : Bytes} {i : Nat} (h : i < buffer.length) (b : UInt8) :
    (buffer.set i b).take (i + 1) = buffer.take i ++ [b] := by
  have hlength : (buffer.take i).length = i := List.length_take_of_le (by omega)
  rw [List.set_eq_take_append_cons_drop, if_pos h, List.take_append, hlength]
  simp

/-- `isspace` in the C locale. -/
def isSpaceByte (b : UInt8) : Bool := b == 0x20 || (9 ≤ b && b ≤ 13)

/-- `isalnum` in the C locale. -/
def isAlnumByte (b : UInt8) : Bool :=
  (0x30 ≤ b && b ≤ 0x39) || (0x41 ≤ b && b ≤ 0x5a) || (0x61 ≤ b && b ≤ 0x7a)

/-! ## Mount paths -/

/-- An octal digit. -/
def isOctal (b : UInt8) : Bool := 0x30 ≤ b && b ≤ 0x37

/-- `storage_decode_mount_path` on the way: the buffer and its two cursors. -/
structure MountPath where
  buffer : Bytes
  read : Nat
  write : Nat
deriving DecidableEq, Repr

/-- The byte that the escape at a position stands for. The digits are loaded one by one,
    up to the first byte that does not fit. -/
def escapeAt (buffer : Bytes) (read : Nat) : Option (Option UInt8) := do
  let b₀ ← buffer[read]?
  if b₀ ≠ 0x5c then return none
  let b₁ ← buffer[read + 1]?
  if !isOctal b₁ then return none
  let b₂ ← buffer[read + 2]?
  if !isOctal b₂ then return none
  let b₃ ← buffer[read + 3]?
  if !isOctal b₃ then return none
  return some ((b₁ - 0x30) * 64 + (b₂ - 0x30) * 8 + (b₃ - 0x30))

/-- The body of the loop: one byte is written. -/
def MountPath.step (s : MountPath) : Option MountPath := do
  match ← escapeAt s.buffer s.read with
  | some b =>
    let buffer ← store s.buffer s.write b
    return ⟨buffer, s.read + 4, s.write + 1⟩
  | none =>
    let b ← s.buffer[s.read]?
    let buffer ← store s.buffer s.write b
    return ⟨buffer, s.read + 1, s.write + 1⟩

/-- The loop, while the byte under the read cursor is not NUL; each turn takes one unit of
    fuel and moves this cursor. -/
def MountPath.decode : Nat → MountPath → Option Bytes
  | 0, _ => none
  | fuel + 1, s => do
    let b ← s.buffer[s.read]?
    if b = 0 then store s.buffer s.write 0
    else
      let s ← s.step
      s.decode fuel

/-- `storage_decode_mount_path`. -/
def decodeMountPath (buffer : Bytes) : Option Bytes :=
  MountPath.decode (buffer.length + 1) ⟨buffer, 0, 0⟩

/-! ## Slugs -/

/-- `MAX_NAME`. -/
def maxName : Nat := 128

/-- A byte that `storage_slug` keeps. -/
def isSlugByte (b : UInt8) : Bool := isAlnumByte b || b == 0x2e || b == 0x5f || b == 0x2d

/-- `storage_slug` on the way. -/
structure Slug where
  output : Bytes
  written : Nat
  pendingDash : Bool
deriving DecidableEq, Repr

/-- `output[written++] = b`. -/
def Slug.put (s : Slug) (b : UInt8) : Option Slug :=
  (store s.output s.written b).map fun output =>
    { s with output := output, written := s.written + 1 }

/-- The body of the loop: up to two bytes are written. -/
def Slug.step (s : Slug) (character : UInt8) : Option Slug :=
  if isSlugByte character then do
    let s ← if s.pendingDash && decide (0 < s.written) && decide (s.written < maxName) then
      s.put 0x2d
      else some s
    let s ← s.put character
    return { s with pendingDash := false }
  else if isSpaceByte character then some { s with pendingDash := true }
  else some s

/-- The loop over the bytes of `value`. -/
def Slug.collect : Bytes → Slug → Option Slug
  | [], s => some s
  | character :: rest, s =>
    if s.written < maxName then (s.step character).bind (collect rest) else some s

/-- The loop that trims the end: the bytes that are left of the first `written`. -/
def trimmedLength (output : Bytes) : Nat → Option Nat
  | 0 => some 0
  | written + 1 => do
    let b ← output[written]?
    if b = 0x2e ∨ b = 0x2d then trimmedLength output written else return written + 1

/-- `snprintf(output, capacity, "%s", text)`. -/
def printString (output text : Bytes) (capacity : Nat) : Bytes :=
  let text := text.take (capacity - 1)
  text ++ 0 :: output.drop (text.length + 1)

/-- `storage_slug` into a buffer that holds anything. -/
def storageSlug (value fallback output : Bytes) : Option Bytes := do
  let s ← Slug.collect value ⟨output, 0, false⟩
  let written ← trimmedLength s.output s.written
  let output ← store s.output written 0
  if written = 0 ∨ cText output = ascii "." ∨ cText output = ascii ".." then
    return printString output fallback (maxName + 1)
  else return output

/-! ## Names of Bluetooth devices -/

/-- `memcpy` of `length` bytes from a position. -/
def copyBytes (buffer : Bytes) (position length : Nat) : Option Bytes :=
  if position + length ≤ buffer.length then some ((buffer.drop position).take length) else none

/-- `bluetooth_name_from_eir` from a position on, with what the output holds then; each turn
    takes one unit of fuel. -/
def eirName (eir : Bytes) : Nat → Nat → Bytes → Option Bytes
  | 0, _, _ => none
  | fuel + 1, position, output =>
    if position < eir.length then do
      let fieldLength ← eir[position]?
      if fieldLength = 0 then return output
      else if fieldLength.toNat + 1 > eir.length - position then return output
      else
        let type ← eir[position + 1]?
        if (type = 0x08 ∨ type = 0x09) ∧ fieldLength.toNat > 1 then
          let copyLength := if fieldLength.toNat - 1 ≥ 64 then 63 else fieldLength.toNat - 1
          let name ← copyBytes eir (position + 2) copyLength
          if type = 0x09 then return name.map nameByte
          else eirName eir fuel (position + (fieldLength.toNat + 1)) (name.map nameByte)
        else eirName eir fuel (position + (fieldLength.toNat + 1)) output
    else return output

/-- `bluetooth_name_from_eir` with its loads: no result where it reads outside of the given
    length. -/
def nameFromEir (eir : Bytes) : Option Bytes := eirName eir (eir.length + 1) 0 []

/-! ## Management packets -/

/-- `read_le16` with its loads. -/
def loadLe16 (packet : Bytes) (i : Nat) : Option Nat := do
  let low ← packet[i]?
  let high ← packet[i + 1]?
  return low.toNat + 256 * high.toNat

/-- `bluetooth_address` with its loads. -/
def loadAddress (packet : Bytes) : Option String := do
  let bytes ← [5, 4, 3, 2, 1, 0].mapM fun i => packet[i]?
  return String.ofList ([':'].intercalate (bytes.map hexByte))

/-- The loads of `remember_bluetooth_found` from the bytes of its payload, and the row that
    they give. -/
def loadFoundRow (payload : Bytes) : Option (Option BluetoothFound) :=
  if payload.length < 14 then some none
  else do
    let eirLength ← loadLe16 payload 12
    if eirLength > payload.length - 14 then return none
    else
      let address ← loadAddress payload
      let eir ← copyBytes payload 14 eirLength
      let name ← nameFromEir eir
      let addressType ← payload[6]?
      let rssi ← payload[7]?
      return some ⟨address, name, addressType.toNat, signedByte rssi⟩

/-- The checks of `receive_mgmt_event` with their loads from the bytes that are received. -/
def loadDatagram (opcode index : Nat) (capacity : Option Nat) (packet : Bytes) : Option Datagram :=
  if packet.length < 6 then some (.rejected .recv packet.length)
  else do
    let event ← loadLe16 packet 0
    let controller ← loadLe16 packet 2
    let payloadLength ← loadLe16 packet 4
    if payloadLength ≠ packet.length - 6 then return .rejected .length payloadLength
    else if event = mgmtEvDeviceFound ∧ controller = index then
      return .found (← copyBytes packet 6 payloadLength)
    else if controller ≠ index ∨ payloadLength < 3 ∨
      (event ≠ mgmtEvCmdComplete ∧ event ≠ mgmtEvCmdStatus) then
      return .unrelated
    else
      let command ← loadLe16 packet 6
      if command ≠ opcode then return .unrelated
      else
        let status ← packet[8]?
        if status ≠ 0 then return .rejected .status status.toNat
        else if event = mgmtEvCmdComplete then
          if capacity.any (· < payloadLength - 3) then return .oversized
          else return .reply (← copyBytes packet 9 (payloadLength - 3))
        else return .reply []

/-! ## Attribute files -/

/-- A printable ASCII character. -/
def isPrintable (b : UInt8) : Bool := 0x20 ≤ b && b ≤ 0x7e

/-- `read_text_file` into a buffer that holds anything: whether it succeeds, and what the
    buffer holds then. There are no data where `open` or `read` fails. -/
def readTextInto (data : Option Bytes) (output : Bytes) : Bool × Bytes :=
  match data with
  | none => (false, output)
  | some data =>
    let received := data.take output.length
    let output := received ++ output.drop received.length
    if received.isEmpty || decide (received.length ≥ output.length) then (false, output)
    else
      let output := output.set (received.rdropWhile isSpaceByte).length 0
      ((cText output).all isPrintable, output)

/-- `DeviceKind`, as far as the scans with attribute text go. -/
inductive DeviceKind where
  | power
  | thermal
  | rfkillNetwork
  | rfkillBluetooth
deriving DecidableEq, Repr

/-- `Device`. -/
structure Device where
  kind : DeviceKind
  domain : Bytes
  name : Bytes
  label : Bytes
  detail : Bytes
  maximum : Int
  canSet : Bool
deriving DecidableEq, Repr

/-- An entry of a class directory: its name, the contents of its attribute files (`none`
    where one cannot be read), and whether `soft` may be written. The scan of an entry has
    a local buffer that holds `stale` at first and is followed by `beyond`. -/
structure ClassEntry where
  name : Bytes
  type : Option Bytes
  label : Option Bytes
  hard : Option Bytes
  soft : Option Bytes
  softWritable : Bool
  stale : Bytes
  beyond : Bytes
deriving DecidableEq, Repr

/-- `MAX_DEVICES`. -/
def maxDevices : Nat := 256

/-- What `snprintf` copies of a local buffer into a field of a device: `%s` does not stop at
    the end of the buffer. -/
def formatted (buffer beyond : Bytes) : Bytes := (cText (buffer ++ beyond)).take maxName

/-- `add_device` of a device with a valid name. -/
def addDevice (devices : List Device) (device : Device) : List Device :=
  if devices.length ≥ maxDevices then devices else devices ++ [device]

/-- `memcpy` of a name with its NUL into a buffer. -/
def copyName (name stale : Bytes) : Bytes := name ++ 0 :: stale.drop (name.length + 1)

/-- `char type[MAX_NAME + 1] = "unknown"`. -/
def unknownBuffer : Bytes := ascii "unknown" ++ List.replicate (maxName + 1 - 7) 0

/-- An entry of `scan_power`. -/
def powerDevice (e : ClassEntry) : Device :=
  let type := (readTextInto e.type unknownBuffer).2
  ⟨.power, ascii "power", e.name, e.name, formatted type e.beyond, 0, false⟩

/-- `scan_power`. -/
def scanPower (entries : List ClassEntry) (devices : List Device) : List Device :=
  entries.foldl (fun devices e => addDevice devices (powerDevice e)) devices

/-- An entry of `scan_thermal`. -/
def thermalDevice (e : ClassEntry) : Device :=
  let type := (readTextInto e.type (copyName e.name e.stale)).2
  ⟨.thermal, ascii "thermal", e.name, formatted type e.beyond, formatted type e.beyond, 0, false⟩

/-- `scan_thermal`. -/
def scanThermal (entries : List ClassEntry) (devices : List Device) : List Device :=
  entries.foldl (fun devices e => addDevice devices (thermalDevice e)) devices

/-- The kind and domain of an rfkill entry. -/
def rfkillKind (type : List Char) : Option (DeviceKind × Bytes) :=
  if type = "bluetooth".toList then some (.rfkillBluetooth, ascii "bluetooth")
  else if type = "wlan".toList ∨ type = "wifi".toList then some (.rfkillNetwork, ascii "network")
  else none

/-- An entry of `scan_rfkill`; `none` where it is skipped. -/
def rfkillDevice (e : ClassEntry) : Option Device := do
  let type ← fileText 32 e.type
  let (kind, domain) ← rfkillKind type
  let label := (readTextInto e.label (copyName e.name e.stale)).2
  let hard := (fileI64 0 1 e.hard).getD 1
  let _ ← fileI64 0 1 e.soft
  return ⟨kind, domain, e.name, formatted label e.beyond,
    ascii "rfkill", 1, hard == 0 && e.softWritable⟩

/-- `scan_rfkill`. -/
def scanRfkill (entries : List ClassEntry) (devices : List Device) : List Device :=
  (entries.filterMap rfkillDevice).foldl addDevice devices

end MsysHal.Native

import MsysHal.Python.Mipc

/-!
# Reception of a line on the public socket

`PublicGateway._recv_line` of `msys_hal/mipc.py`, over a socket that delivers its
stream in chunks.
-/

namespace MsysHal.PublicGateway

open Python (Value Runtime)

/-- `sock.recv(size)`: at most `size` bytes of the next chunk, with the chunks that are
    left. Nothing comes after the end of the stream. -/
def recv (size : Nat) : List (List UInt8) → List UInt8 × List (List UInt8)
  | [] => ([], [])
  | chunk :: rest =>
    if chunk.length ≤ size then (chunk, rest) else (chunk.take size, chunk.drop size :: rest)

/-- What is received is the start of the stream. -/
theorem recv_flatten (size : Nat) (chunks : List (List UInt8)) :
    (recv size chunks).1 ++ (recv size chunks).2.flatten = chunks.flatten := by
  cases chunks with
  | nil => rfl
  | cons chunk rest =>
    rw [recv]
    split
    · rfl
    · rw [List.flatten_cons, List.flatten_cons, ← List.append_assoc, List.take_append_drop]

/-- The end of `_recv_line`: `data.rstrip(b"\n")` is decoded. -/
def finishLine (rt : Runtime) (data : List UInt8) : Except PyError Value :=
  if data.isEmpty then .error (.exc "EOFError" "empty mIPC public response")
  else decodePacket rt ⟨(data.rdropWhile (· == 0x0a)).toArray⟩

/-- The exception for a line that is too long. -/
def lineTooLarge : PyError := .hal (.validation "mIPC public response is too large")

/-- `_recv_line`, with the chunks that are still to come and the bytes it has. -/
def recvLine (rt : Runtime) (chunks : List (List UInt8)) (data : List UInt8) :
    Except PyError Value :=
  if data.getLast? = some 0x0a then finishLine rt data
  else
    let received := recv (min 65536 (maxPacket + 1 - data.length)) chunks
    if received.1.isEmpty then finishLine rt data
    else if (data ++ received.1).length > maxPacket then .error lineTooLarge
    else recvLine rt received.2 (data ++ received.1)
termination_by chunks.flatten.length
decreasing_by
  rename_i hne _
  have hlength :=
    congrArg List.length (recv_flatten (min 65536 (maxPacket + 1 - data.length)) chunks)
  have hpos := List.length_pos_of_ne_nil fun hnil => hne (List.isEmpty_iff.mpr hnil)
  rw [List.length_append] at hlength
  change received.2.flatten.length < _
  change received.1.length + received.2.flatten.length = _ at hlength
  omega

end MsysHal.PublicGateway

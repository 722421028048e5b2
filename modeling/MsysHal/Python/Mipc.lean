import MsysHal.ForStd.JsonLoads
import MsysHal.Python.Validation

/-!
# Packets and the component server

`msys_hal/mipc.py`: the packet codec and `ComponentServer`, which admits a call
against a bounded number of slots, hands it to a worker, and answers it with one
packet. The handler is a parameter: a function from a method and a payload to
what it returns or raises. Packets that a handler emits on its own (events) are
not replies and are left out.
-/

namespace MsysHal

open Python (Value Runtime)

/-- `MAX_PACKET`. -/
def maxPacket : Nat := 256 * 1024

/-- `MAX_METHOD`. -/
def maxMethod : Nat := 96

/-- The exception `json.loads` raises, where the caller does not catch it. -/
def loadsException : Python.LoadsError → PyError
  | .decodeError => .exc "JSONDecodeError" "invalid JSON"
  | .valueError => .exc "ValueError" "Exceeds the limit for integer string conversion"
  | .recursionError => .exc "RecursionError" "maximum recursion depth exceeded"

/-- `encode_packet`: the characters of the packet; their UTF-8 encoding is sent. -/
def encodePacket (message : Value) : Except HalError (List Char) := do
  ensureBoundedJson message "mIPC message" 10 2048
  match Python.dumps message with
  | none => throw (.validation "mIPC message is not valid JSON")
  | some data =>
    if String.utf8Len data > maxPacket then throw (.validation "mIPC packet is too large")
    return data

/-- `decode_packet`. -/
def decodePacket (rt : Runtime) (data : ByteArray) : Except PyError Value := do
  if data.size = 0 || data.size > maxPacket then
    throw (.hal (.validation "mIPC packet size is invalid"))
  let text ← match String.fromUTF8? data with
    | some text => pure text
    | none => throw (.hal (.validation "mIPC packet is invalid JSON"))
  let value ← match Python.loads rt text.toList with
    | .ok value => pure value
    | .error .decodeError => throw (.hal (.validation "mIPC packet is invalid JSON"))
    | .error e => throw (loadsException e)
  match value.get? "type" with
  | some (.str _) | some (.lone _) => pure ()
  | _ => throw (.hal (.validation "mIPC packet requires an object and string type"))
  match ensureBoundedJson value "mIPC message" 10 2048 with
  | .ok () => return value
  | .error e => throw (.hal e)

/-! ## `ComponentServer` -/

/-- The admission slots that are free and the packets sent so far. -/
structure Server where
  free : Nat
  sent : List Value

namespace Server

/-- `PacketTransport.send` over a socket that takes every packet. -/
def send (server : Server) (message : Value) : Except HalError Server := do
  let _ ← encodePacket message
  return { server with sent := server.sent ++ [message] }

/-- The normalised request id of a call. -/
def requestId (message : Value) : Int :=
  match message.get? "id" with
  | some (.int n) => if n < 0 then 0 else n
  | _ => 0

/-- The packet that refuses a call while no slot is free. -/
def busyPacket (id : Int) : Value :=
  .object [("type", .str "error"), ("id", .int id), ("code", .str "HAL_BUSY"),
    ("message", .str "HAL component request limit reached")]

/-- The packet that carries a result. -/
def returnPacket (id : Int) (result : Value) : Value :=
  .object [("type", .str "return"), ("id", .int id), ("payload", result)]

/-- The packet of a `HalError`; the details are left out when there are none. -/
def errorPacket (id : Int) (error : HalError) : Value :=
  .object ([("type", .str "error"), ("id", .int id), ("code", .str (clip 64 error.code)),
    ("message", .str (clip 512 error.message))] ++
    if error.details.isEmpty then [] else [("payload", .object error.details)])

/-- The packet of any other exception. -/
def internalPacket (id : Int) : Value :=
  .object [("type", .str "error"), ("id", .int id), ("code", .str "HAL_INTERNAL_ERROR"),
    ("message", .str "HAL component internal error")]

/-- The check of `deadline_ms`; `nowMs` is `int(time.monotonic() * 1000)`. -/
def checkDeadline (nowMs : Int) : Option Value → Except HalError Unit
  | none | some .null => .ok ()
  | some deadline => do
    let deadline ← integer deadline "deadline_ms" 0 (2 ^ 63 - 1)
    if deadline ≤ nowMs then .error ⟨"CALL_TIMEOUT", "call deadline already expired", []⟩
    else .ok ()

/-- The method of a call. -/
def callMethod : Option Value → Except HalError String
  | some (.str method) =>
    if method.isEmpty || method.length > maxMethod then .error (.validation "method is invalid")
    else .ok method
  | _ => .error (.validation "method is invalid")

/-- The payload of a call, an empty object when it has none. -/
def callPayload (payload : Option Value) : Except HalError Value :=
  match payload.getD (.dict []) with
  | .dict members => do
    ensureBoundedJson (.dict members) "payload" 8 1024
    return .dict members
  | _ => .error (.validation "payload must be an object")

/-- The checks `_dispatch` makes before it calls the handler: the method and the
    payload of the call, or the error. -/
def checkCall (nowMs : Int) (message : Value) : Except HalError (String × Value) := do
  checkDeadline nowMs (message.get? "deadline_ms")
  let method ← callMethod (message.get? "method")
  let payload ← callPayload (message.get? "payload")
  return (method, payload)

/-- The checks `_dispatch` makes on what the handler returned. -/
def checkResult : Value → Except PyError Value
  | .dict members =>
    match ensureBoundedJson (.dict members) "result" 8 2048 with
    | .ok () => .ok (.dict members)
    | .error e => .error (.hal e)
  | _ => .error (.exc "RuntimeError" "HAL handler returned a non-object")

/-- The `try` block of `_dispatch`. -/
def answer (handler : String → Value → Except PyError Value) (nowMs : Int) (id : Int)
    (message : Value) (server : Server) : Except PyError Server := do
  let (method, payload) ← (checkCall nowMs message).mapError .hal
  let result ← handler method payload >>= checkResult
  (server.send (returnPacket id result)).mapError .hal

/-- The `except` clauses of `_dispatch`; the error is what they raise themselves. -/
def answerError (id : Int) (error : PyError) (server : Server) : Except HalError Server :=
  match error with
  | .hal error => server.send (errorPacket id error)
  | .exc _ _ => server.send (internalPacket id)

/-- `_dispatch`. The slot is released on every path; an exception that leaves an
    `except` clause is kept by the executor and never seen. -/
def dispatch (handler : String → Value → Except PyError Value) (nowMs : Int) (id : Int)
    (message : Value) (server : Server) : Server :=
  let server := match answer handler nowMs id message server with
    | .ok server => server
    | .error error =>
      match answerError id error server with
      | .ok server => server
      | .error _ => server
  { server with free := server.free + 1 }

/-- What becomes of an admitted call: a worker runs it, or the server shuts down
    while it is still queued (`cancel_futures=True`). -/
inductive Fate where
  | executed
  | cancelled
deriving DecidableEq, Repr

/-- `_accept` and, for an admitted call, `_dispatch` in a worker. A send that
    raises in `_accept` itself ends the receive loop (`none`). -/
def accept (handler : String → Value → Except PyError Value) (nowMs : Int) (fate : Fate)
    (message : Value) (server : Server) : Option Server :=
  let id := requestId message
  if server.free = 0 then (server.send (busyPacket id)).toOption
  else
    let admitted := { server with free := server.free - 1 }
    match fate with
    | .executed => some (dispatch handler nowMs id message admitted)
    | .cancelled => some admitted

end Server

end MsysHal

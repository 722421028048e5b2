import MsysHal.Python.Catalog
import MsysHal.Python.Mipc
import MsysHal.Spec.Validators

/-!
# One reply per call

`ComponentServer` answers a call with the packet of the result or, when anything
raises, with an error packet. Every packet is checked when it is sent, the error
packet too. An error packet without details always passes, whatever the check
before it complained about. One with details need not: the details that
`HalManager` builds around the payload of a provider are nested deeper than that
payload, and an error packet that does not pass is lost with its call.

## Key results

- `send_ok_iff`: the packets that can be sent
- `errorPacket_bounded_iff`: the errors whose packet can be sent
- `dispatch_eq`: what a worker sends, by what the handler does
- `one_reply_per_call`: when a call gets its reply and gives its slot back
-/

namespace MsysHal

open Python (Value Runtime)

/-! ## Packets -/

/-- `encode_packet` succeeds exactly within the bounds of a packet: the limit of
    256 KiB is never the one that is hit. -/
theorem encodePacket_ok_iff (packet : Value) (data : List Char) :
    encodePacket packet = .ok data ↔ Bounded 10 2048 packet ∧ data = packet.text := by
  rw [encodePacket, Except.bind_eq_ok_iff]
  constructor
  · rintro ⟨u, hb, hdata⟩
    have hbounded := (ensureBoundedJson_ok_iff packet _ _ _).mp hb
    simp only [Python.dumps, if_pos hbounded.dumpable] at hdata
    split at hdata
    · cases hdata
    · exact ⟨hbounded, (Except.ok.inj hdata).symm⟩
  · rintro ⟨hb, rfl⟩
    have hsize : ¬String.utf8Len packet.text > maxPacket := by
      have h := hb.size
      simp only [maxHalJson, Value.size] at h
      simp only [maxPacket]
      omega
    refine ⟨(), (ensureBoundedJson_ok_iff packet _ _ _).mpr hb, ?_⟩
    simp only [Python.dumps, if_pos hb.dumpable, if_neg hsize]
    rfl

/-- What `encode_packet` raises is a plain error. -/
theorem encodePacket_plain {packet : Value} {e : HalError} (h : encodePacket packet = .error e) :
    PlainError e := by
  have herr := h
  rw [encodePacket, Except.bind_eq_error_iff] at h
  rcases h with h | ⟨u, hb, -⟩
  · exact ensureBoundedJson_plain (by decide) h
  · have hbounded := (ensureBoundedJson_ok_iff packet _ _ _).mp hb
    exact nomatch herr.symm.trans ((encodePacket_ok_iff packet _).mpr ⟨hbounded, rfl⟩)

/-- A packet that has been decoded is within the bounds of a packet. -/
private theorem bounded_of_last {value message : Value}
    (h : (match ensureBoundedJson value "mIPC message" 10 2048 with
      | .ok () => pure value
      | .error e => throw (PyError.hal e)) = (.ok message : Except PyError Value)) :
    Bounded 10 2048 message := by
  split at h
  · next hb =>
    cases h
    exact (ensureBoundedJson_ok_iff _ _ _ _).mp hb
  · cases h

theorem decodePacket_bounded {rt : Runtime} {data : ByteArray} {message : Value}
    (h : decodePacket rt data = .ok message) : Bounded 10 2048 message := by
  -- every other way out of the decoder raises
  unfold decodePacket at h
  dsimp only at h
  split at h
  · cases h
  · split at h
    · rw [pure_bind] at h
      split at h
      · rw [pure_bind] at h
        split at h
        · exact bounded_of_last h
        · exact bounded_of_last h
        · cases h
      · cases h
      · cases h
    · cases h

namespace Server

/-- A packet is sent exactly when it is within the bounds of a packet. -/
theorem send_ok_iff (server server' : Server) (packet : Value) :
    server.send packet = .ok server' ↔
      Bounded 10 2048 packet ∧ server' = { server with sent := server.sent ++ [packet] } := by
  rw [send, Except.bind_eq_ok_iff]
  constructor
  · rintro ⟨data, hdata, hs⟩
    exact ⟨((encodePacket_ok_iff packet data).mp hdata).1, (Except.ok.inj hs).symm⟩
  · rintro ⟨hb, rfl⟩
    exact ⟨packet.text, (encodePacket_ok_iff packet _).mpr ⟨hb, rfl⟩, rfl⟩

theorem send_plain {server : Server} {packet : Value} {e : HalError}
    (h : server.send packet = .error e) : PlainError e := by
  rw [send, Except.bind_eq_error_iff] at h
  rcases h with h | ⟨data, -, h⟩
  · exact encodePacket_plain h
  · exact nomatch h

/-! ## Error packets -/

/-- The errors whose packet can be sent: texts without NUL, details that leave
    room for the packet around them, and a packet of at most 128 KiB. -/
structure ErrorFits (id : Int) (e : HalError) : Prop where
  code : hasNul (clip 64 e.code) = false
  message : hasNul (clip 512 e.message) = false
  nodes : (Value.object e.details).nodes ≤ 2043
  height : (Value.object e.details).height ≤ 9
  wellFormed : wellFormed (.object e.details) = true
  dumpable : (Value.object e.details).dumpable = true
  size : (errorPacket id e).size ≤ maxHalJson

instance (id : Int) (e : HalError) : Decidable (ErrorFits id e) :=
  decidable_of_iff ((hasNul (clip 64 e.code) = false ∧ hasNul (clip 512 e.message) = false) ∧
      ((Value.object e.details).nodes ≤ 2043 ∧ (Value.object e.details).height ≤ 9) ∧
      (MsysHal.wellFormed (.object e.details) = true ∧ (Value.object e.details).dumpable = true) ∧
      (errorPacket id e).size ≤ maxHalJson)
    ⟨fun ⟨⟨h₁, h₂⟩, ⟨h₃, h₄⟩, ⟨h₅, h₆⟩, h₇⟩ => ⟨h₁, h₂, h₃, h₄, h₅, h₆, h₇⟩,
      fun h => ⟨⟨h.code, h.message⟩, ⟨h.nodes, h.height⟩, ⟨h.wellFormed, h.dumpable⟩, h.size⟩⟩

/-- The packet of an error, with its details in place. -/
private theorem errorPacket_cases (id : Int) (e : HalError) :
    (e.details = [] ∧ errorPacket id e = .object [("type", .str "error"), ("id", .int id),
      ("code", .str (clip 64 e.code)), ("message", .str (clip 512 e.message))]) ∨
    errorPacket id e = .object [("type", .str "error"), ("id", .int id),
      ("code", .str (clip 64 e.code)), ("message", .str (clip 512 e.message)),
      ("payload", .object e.details)] := by
  unfold errorPacket
  cases hd : e.details with
  | nil => exact .inl ⟨rfl, rfl⟩
  | cons detail rest => exact .inr rfl

private theorem plainText_clip (n : Nat) (hn : n ≤ 4096) (text : String) :
    plainText (clip n text) = !hasNul (clip n text) := by
  have hlen := length_clip_le n text
  rw [plainText, decide_eq_true (by omega), Bool.true_and]

/-- What the checks besides the size see of an error packet: its texts and its details. -/
private theorem errorPacket_shape (id : Int) (e : HalError) :
    ((errorPacket id e).nodes ≤ 2048 ↔ (Value.object e.details).nodes ≤ 2043) ∧
    ((errorPacket id e).height ≤ 10 ↔ (Value.object e.details).height ≤ 9) ∧
    (wellFormed (errorPacket id e) = true ↔ hasNul (clip 64 e.code) = false ∧
      hasNul (clip 512 e.message) = false ∧ wellFormed (.object e.details) = true) ∧
    ((errorPacket id e).dumpable = true ↔
      Python.shortInt id = true ∧ (Value.object e.details).dumpable = true) := by
  have htype : plainText "error" = true := by decide
  have hcode := plainText_clip 64 (by omega) e.code
  have hmessage := plainText_clip 512 (by omega) e.message
  have hkeys : ["type", "id", "code", "message", "payload"].all (fun k => plainKey (.str k)) := by
    decide
  simp only [List.all_cons, List.all_nil, Bool.and_true, Bool.and_eq_true] at hkeys
  obtain ⟨hk₁, hk₂, hk₃, hk₄, hk₅⟩ := hkeys
  rcases errorPacket_cases id e with ⟨hd, hp⟩ | hp
  · rw [hp, hd]
    simp [Value.object, Value.nodes, Python.nodesMembers, Value.height, Python.heightMembers,
      wellFormed, wellFormedMembers, Value.dumpable, Python.dumpableMembers, Python.dumpableKey,
      htype, hcode, hmessage, hk₁, hk₂, hk₃, hk₄]
  · rw [hp, Value.object]
    generalize Value.object e.details = details
    simp [Value.nodes, Python.nodesMembers, Value.height, Python.heightMembers,
      wellFormed, wellFormedMembers, Value.dumpable, Python.dumpableMembers, Python.dumpableKey,
      htype, hcode, hmessage, hk₁, hk₂, hk₃, hk₄, hk₅]
    omega

/-- An error packet is within the bounds exactly when its error fits. -/
theorem errorPacket_bounded_iff {id : Int} (hid : Python.shortInt id = true) (e : HalError) :
    Bounded 10 2048 (errorPacket id e) ↔ ErrorFits id e := by
  obtain ⟨hnodes, hheight, hwell, hdump⟩ := errorPacket_shape id e
  constructor
  · intro hb
    obtain ⟨hcode, hmessage, hdetails⟩ := hwell.mp hb.wellFormed
    exact ⟨hcode, hmessage, hnodes.mp hb.nodes, hheight.mp hb.height, hdetails,
      (hdump.mp hb.dumpable).2, hb.size⟩
  · intro hf
    exact ⟨hnodes.mpr hf.nodes, hheight.mpr hf.height,
      hwell.mpr ⟨hf.code, hf.message, hf.wellFormed⟩, hdump.mpr ⟨hid, hf.dumpable⟩, hf.size⟩

/-- A plain error fits whatever the request id: its packet is a few KiB at most. -/
theorem errorFits_of_plain {e : HalError} (h : PlainError e) {id : Int}
    (hid : Python.shortInt id = true) : ErrorFits id e := by
  have hsize : (errorPacket id e).size ≤ maxHalJson := by
    have htext := Python.utf8Len_le (errorPacket id e).text
    have hidText := Python.length_intText_le hid
    have hcode := Python.length_quote_le (clip 64 e.code)
    have hmessage := Python.length_quote_le (clip 512 e.message)
    have hcodeLen := length_clip_le 64 e.code
    have hmessageLen := length_clip_le 512 e.message
    have hlen : (errorPacket id e).text.length ≤ 9000 := by
      rw [errorPacket, h.details]
      simp only [List.isEmpty_nil, if_true, List.append_nil, Value.object, List.map_cons,
        List.map_nil, Value.text, Python.textMembers, Python.keyText, List.length_cons,
        List.length_append, List.length_nil]
      have hkeys : (Python.quote "type").length = 6 ∧ (Python.quote "id").length = 4 ∧
          (Python.quote "code").length = 6 ∧ (Python.quote "message").length = 9 ∧
          (Python.quote "error").length = 7 := by decide
      obtain ⟨hk₁, hk₂, hk₃, hk₄, hk₅⟩ := hkeys
      rw [hk₁, hk₂, hk₃, hk₄, hk₅]
      rw [Python.maxStrDigits] at hidText
      omega
    rw [Value.size, maxHalJson]
    omega
  refine ⟨hasNul_clip h.code, hasNul_clip h.message, ?_, ?_, ?_, ?_, hsize⟩ <;>
    rw [h.details] <;> decide

/-! ## The request id -/

/-- The id of a call that has been decoded can be written back. -/
theorem shortInt_requestId {rt : Runtime} {data : ByteArray} {message : Value}
    (h : decodePacket rt data = .ok message) : Python.shortInt (requestId message) = true := by
  have hb : Bounded 10 2048 message := decodePacket_bounded h
  have hzero : Python.shortInt 0 = true := by decide
  unfold requestId
  split
  · next n hn =>
    split
    · exact hzero
    · cases message with
      | dict members => exact Python.dumpable_lookup hb.dumpable hn
      | _ => exact nomatch hn
  · exact hzero

/-! ## Replies -/

/-- A packet of type `return` or `error` with this request id. -/
def IsReply (id : Int) (packet : Value) : Prop :=
  (packet.get? "type" = some (.str "return") ∨ packet.get? "type" = some (.str "error")) ∧
    packet.get? "id" = some (.int id)

theorem isReply_returnPacket (id : Int) (result : Value) : IsReply id (returnPacket id result) :=
  ⟨.inl rfl, rfl⟩

theorem isReply_errorPacket (id : Int) (e : HalError) : IsReply id (errorPacket id e) := by
  rcases errorPacket_cases id e with ⟨-, hp⟩ | hp
  all_goals
    rw [hp]
    exact ⟨.inr rfl, rfl⟩

theorem isReply_internalPacket (id : Int) : IsReply id (internalPacket id) := ⟨.inr rfl, rfl⟩

theorem isReply_busyPacket (id : Int) : IsReply id (busyPacket id) := ⟨.inr rfl, rfl⟩

/-! ## The worker -/

theorem constant_plain {code message : String} (hc : hasNul code = false)
    (hm : hasNul message = false) : PlainError ⟨code, message, []⟩ := ⟨rfl, hc, hm⟩

theorem checkDeadline_plain {nowMs : Int} {deadline : Option Value} {e : HalError}
    (h : checkDeadline nowMs deadline = .error e) : PlainError e := by
  unfold checkDeadline at h
  split at h
  · exact nomatch h
  · exact nomatch h
  · next deadline _ =>
    rcases Except.bind_eq_error_iff.mp h with h | ⟨n, -, h⟩
    · unfold integer at h
      split at h
      · split at h
        · cases h
          exact constant_plain (by decide) (by decide)
        · exact nomatch h
      · cases h
        exact constant_plain (by decide) (by decide)
    · split at h
      · cases h
        exact constant_plain (by decide) (by decide)
      · exact nomatch h

theorem callMethod_plain {method : Option Value} {e : HalError}
    (h : callMethod method = .error e) : PlainError e := by
  unfold callMethod at h
  split at h
  · split at h
    · cases h
      exact constant_plain (by decide) (by decide)
    · exact nomatch h
  · cases h
    exact constant_plain (by decide) (by decide)

theorem callPayload_plain {payload : Option Value} {e : HalError}
    (h : callPayload payload = .error e) : PlainError e := by
  unfold callPayload at h
  split at h
  · rcases Except.bind_eq_error_iff.mp h with h | ⟨_, -, h⟩
    · exact ensureBoundedJson_plain (by decide) h
    · exact nomatch h
  · cases h
    exact constant_plain (by decide) (by decide)

/-- What the checks before the handler raise is a plain error. -/
theorem checkCall_plain {nowMs : Int} {message : Value} {e : HalError}
    (h : checkCall nowMs message = .error e) : PlainError e := by
  rcases Except.bind_eq_error_iff.mp h with h | ⟨_, -, h⟩
  · exact checkDeadline_plain h
  · rcases Except.bind_eq_error_iff.mp h with h | ⟨method, -, h⟩
    · exact callMethod_plain h
    · rcases Except.bind_eq_error_iff.mp h with h | ⟨payload, -, h⟩
      · exact callPayload_plain h
      · exact nomatch h

/-- What the checks on a result raise is a plain error or an internal one. -/
theorem checkResult_plain {result : Value} {e : HalError}
    (h : checkResult result = .error (.hal e)) : PlainError e := by
  unfold checkResult at h
  split at h
  · split at h
    · exact nomatch h
    · next he =>
      cases h
      exact ensureBoundedJson_plain (by decide) he
  · exact nomatch h

theorem internalPacket_bounded {id : Int} (hid : Python.shortInt id = true) :
    Bounded 10 2048 (internalPacket id) :=
  -- the packet of an error that is plain
  (errorPacket_bounded_iff hid ⟨"HAL_INTERNAL_ERROR", "HAL component internal error", []⟩).mpr
    (errorFits_of_plain (constant_plain (by decide) (by decide)) hid)

theorem busyPacket_bounded {id : Int} (hid : Python.shortInt id = true) :
    Bounded 10 2048 (busyPacket id) :=
  (errorPacket_bounded_iff hid ⟨"HAL_BUSY", "HAL component request limit reached", []⟩).mpr
    (errorFits_of_plain (constant_plain (by decide) (by decide)) hid)

section Worker

variable (handler : String → Value → Except PyError Value) (nowMs : Int) {id : Int}
  (message : Value) (server : Server)

/-- The `try` block sends the result, or raises an exception: an internal one, a
    plain error, or the error of the handler. -/
theorem answer_cases (id : Int) :
    (∃ result, answer handler nowMs id message server =
      .ok { server with sent := server.sent ++ [returnPacket id result] }) ∨
    (∃ name text, answer handler nowMs id message server = .error (.exc name text)) ∨
    (∃ e, answer handler nowMs id message server = .error (.hal e) ∧ (PlainError e ∨
      ∃ method payload, checkCall nowMs message = .ok (method, payload) ∧
        handler method payload = .error (.hal e))) := by
  cases hanswer : answer handler nowMs id message server with
  | ok server' =>
    obtain ⟨call, -, h⟩ := Except.bind_eq_ok_iff.mp hanswer
    obtain ⟨result, -, h⟩ := Except.bind_eq_ok_iff.mp h
    obtain ⟨-, rfl⟩ := (send_ok_iff _ _ _).mp (Except.mapError_eq_ok_iff.mp h)
    exact .inl ⟨result, rfl⟩
  | error error =>
    cases error with
    | exc name text => exact .inr (.inl ⟨name, text, rfl⟩)
    | hal e =>
      refine .inr (.inr ⟨e, rfl, ?_⟩)
      -- the exception comes from the checks, the handler, the result or the send
      rcases Except.bind_eq_error_iff.mp hanswer with h | ⟨⟨method, payload⟩, hcall, h⟩
      · obtain ⟨e', h, he⟩ := Except.mapError_eq_error_iff.mp h
        cases he
        exact .inl (checkCall_plain h)
      · rcases Except.bind_eq_error_iff.mp h with h | ⟨result, -, h⟩
        · rcases Except.bind_eq_error_iff.mp h with h | ⟨raw, -, h⟩
          · exact .inr ⟨method, payload, Except.mapError_eq_ok_iff.mp hcall, h⟩
          · exact .inl (checkResult_plain h)
        · obtain ⟨e', h, he⟩ := Except.mapError_eq_error_iff.mp h
          cases he
          exact .inl (send_plain h)

/-- An error of the handler is what the `try` block raises. -/
theorem answer_handler_error {method : String} {payload : Value} {e : HalError}
    (hcall : checkCall nowMs message = .ok (method, payload))
    (hhandler : handler method payload = .error (.hal e)) :
    answer handler nowMs id message server = .error (.hal e) := by
  simp only [answer, hcall, Except.mapError, bind, Except.bind, hhandler]

/-- A worker sends exactly one reply unless the handler raises an error that does
    not fit a packet; it gives the slot back in any case. -/
theorem dispatch_sends_iff (hid : Python.shortInt id = true) :
    (∃ reply, IsReply id reply ∧ dispatch handler nowMs id message server =
      ⟨server.free + 1, server.sent ++ [reply]⟩) ↔
    ∀ method payload e, checkCall nowMs message = .ok (method, payload) →
      handler method payload = .error (.hal e) → ErrorFits id e := by
  constructor
  · rintro ⟨reply, -, hreply⟩ method payload e hcall hhandler
    by_contra hfits
    have hsend : ∀ server', ¬server.send (errorPacket id e) = .ok server' := by
      intro server' hs
      exact hfits ((errorPacket_bounded_iff hid e).mp ((send_ok_iff _ _ _).mp hs).1)
    rw [dispatch, answer_handler_error handler nowMs message server hcall hhandler] at hreply
    simp only [answerError] at hreply
    split at hreply
    · next server' hs => exact hsend server' hs
    · have hsent := congrArg (List.length ∘ Server.sent) hreply
      simp at hsent
  · intro hfits
    rcases answer_cases handler nowMs message server id with
      ⟨result, h⟩ | ⟨name, text, h⟩ | ⟨e, h, he⟩
    · refine ⟨_, isReply_returnPacket id result, ?_⟩
      rw [dispatch, h]
    · refine ⟨_, isReply_internalPacket id, ?_⟩
      have hs := (send_ok_iff server _ _).mpr ⟨internalPacket_bounded hid, rfl⟩
      simp only [dispatch, h, answerError, hs]
    · refine ⟨_, isReply_errorPacket id e, ?_⟩
      have hef : ErrorFits id e := by
        rcases he with hplain | ⟨method, payload, hcall, hhandler⟩
        · exact errorFits_of_plain hplain hid
        · exact hfits method payload e hcall hhandler
      have hs := (send_ok_iff server _ _).mpr ⟨(errorPacket_bounded_iff hid e).mpr hef, rfl⟩
      simp only [dispatch, h, answerError, hs]

/-- An error packet is not a return packet. -/
private theorem error_ne_return {packet result : Value}
    (h : packet.get? "type" = some (.str "error")) : packet ≠ returnPacket id result := by
  rintro rfl
  have htype : some (Value.str "return") = some (.str "error") := h
  simp only [Option.some.injEq, Value.str.injEq] at htype
  exact absurd htype (by decide)

/-- The `except` clauses never send a packet of type `return`. -/
theorem answerError_ne_return {error : PyError} {server' : Server} {result : Value}
    (h : answerError id error server = .ok server') :
    server'.sent ≠ server.sent ++ [returnPacket id result] := by
  intro heq
  cases error with
  | exc name text =>
    obtain ⟨-, rfl⟩ := (send_ok_iff _ _ _).mp h
    have hlast := List.append_cancel_left heq
    rw [List.cons.injEq] at hlast
    exact error_ne_return rfl hlast.1
  | hal e =>
    obtain ⟨-, rfl⟩ := (send_ok_iff _ _ _).mp h
    have hlast := List.append_cancel_left heq
    rw [List.cons.injEq] at hlast
    refine error_ne_return ?_ hlast.1
    rcases errorPacket_cases id e with ⟨-, hp⟩ | hp <;> rw [hp] <;> rfl

/-- A call that is refused is not answered with a result. -/
theorem accept_busy_ne_return {fate : Fate} {result : Value}
    (hfree : server.free = 0) : accept handler nowMs fate message server ≠
      some ⟨server.free, server.sent ++ [returnPacket (requestId message) result]⟩ := by
  intro h
  rw [accept, if_pos hfree] at h
  cases hs : server.send (busyPacket (requestId message)) with
  | error e => rw [hs] at h; exact nomatch h
  | ok server' =>
    obtain ⟨-, rfl⟩ := (send_ok_iff _ _ _).mp hs
    rw [hs] at h
    have hsent := congrArg Server.sent (Option.some.inj h)
    have hlast := List.append_cancel_left hsent
    rw [List.cons.injEq] at hlast
    exact error_ne_return rfl hlast.1

section Result

variable {method : String} {payload : Value} {members : List (Value × Value)}
  (hcall : checkCall nowMs message = .ok (method, payload))
  (hhandler : handler method payload = .ok (.dict members))

include hcall hhandler

private theorem answer_of_result : answer handler nowMs id message server =
    (checkResult (.dict members) >>= fun result =>
      (server.send (returnPacket id result)).mapError .hal) := by
  simp only [answer, hcall, Except.mapError, bind, Except.bind, hhandler]

/-- A result within the bounds of a result, whose packet is within the bounds of a
    packet, is returned. -/
theorem dispatch_returns (hresult : Bounded 8 2048 (.dict members))
    (hpacket : Bounded 10 2048 (returnPacket id (.dict members))) :
    dispatch handler nowMs id message server =
      ⟨server.free + 1, server.sent ++ [returnPacket id (.dict members)]⟩ := by
  have hcheck : checkResult (.dict members) = .ok (.dict members) := by
    rw [checkResult, (ensureBoundedJson_ok_iff _ _ _ _).mpr hresult]
  have hsend := (send_ok_iff server _ _).mpr ⟨hpacket, rfl⟩
  rw [dispatch, answer_of_result handler nowMs message server hcall hhandler, hcheck]
  simp only [bind, Except.bind, hsend, Except.mapError]

/-- Nothing else is returned. -/
theorem bounded_of_dispatch_returns {result : Value}
    (h : dispatch handler nowMs id message server =
      ⟨server.free + 1, server.sent ++ [returnPacket id result]⟩) :
    Bounded 8 2048 (.dict members) ∧ Bounded 10 2048 (returnPacket id (.dict members)) := by
  rw [dispatch, answer_of_result handler nowMs message server hcall hhandler] at h
  have hsent := congrArg Server.sent h
  dsimp only at hsent
  split at hsent
  · next server' hok =>
    obtain ⟨checked, hchecked, hsend⟩ := Except.bind_eq_ok_iff.mp hok
    rw [checkResult] at hchecked
    split at hchecked
    · next hb =>
      cases hchecked
      obtain ⟨hpacket, -⟩ := (send_ok_iff _ _ _).mp (Except.mapError_eq_ok_iff.mp hsend)
      exact ⟨(ensureBoundedJson_ok_iff _ _ _ _).mp hb, hpacket⟩
    · exact nomatch hchecked
  · split at hsent
    · next server' herror => exact absurd hsent (answerError_ne_return server herror)
    · have hlen := congrArg List.length hsent
      simp at hlen

end Result

end Worker

/-- For every call the server receives: it is answered with exactly one packet of
    type `return` or `error` with its request id, and the slots are what they were,
    exactly when it is refused for want of a slot, or it is run and the handler
    raises no error that does not fit a packet. -/
theorem one_reply_per_call (rt : Runtime) (data : ByteArray) (message : Value)
    (hmessage : decodePacket rt data = .ok message)
    (handler : String → Value → Except PyError Value) (nowMs : Int) (fate : Fate)
    (server : Server) :
    (∃ reply, IsReply (requestId message) reply ∧
      accept handler nowMs fate message server = some ⟨server.free, server.sent ++ [reply]⟩) ↔
    server.free = 0 ∨ fate = .executed ∧
      ∀ method payload e, checkCall nowMs message = .ok (method, payload) →
        handler method payload = .error (.hal e) → ErrorFits (requestId message) e := by
  have hid := shortInt_requestId hmessage
  by_cases hfree : server.free = 0
  · refine iff_of_true ⟨_, isReply_busyPacket _, ?_⟩ (.inl hfree)
    have hs := (send_ok_iff server _ _).mpr ⟨busyPacket_bounded hid, rfl⟩
    rw [accept, if_pos hfree, hs]
    rfl
  · rw [accept, if_neg hfree]
    cases fate with
    | cancelled =>
      refine iff_of_false ?_ ?_
      · rintro ⟨reply, -, h⟩
        have hsent := congrArg (List.length ∘ Server.sent) (Option.some.inj h)
        simp at hsent
      · rintro (h | ⟨h, -⟩)
        · exact hfree h
        · exact nomatch h
    | executed =>
      have hdispatch := dispatch_sends_iff handler nowMs message
        { server with free := server.free - 1 } hid
      have hslots : server.free - 1 + 1 = server.free := by omega
      simp only [hslots] at hdispatch
      simp only [Option.some.injEq, hdispatch, hfree, false_or, true_and]

namespace Sample

/-- A call of a client. -/
def call : String :=
  "\x7b\"type\":\"call\",\"id\":7,\"method\":\"get_state\"," ++
  "\"payload\":\x7b\"id\":\"power:main\"\x7d\x7d"

/-- An error of a provider whose payload has a nested list. -/
def providerReply (nested : String) : String :=
  "\x7b\"type\":\"error\",\"code\":\"HAL_UNAVAILABLE\",\"payload\":\x7b\"a\":" ++
    nested ++ "\x7d\x7d"

/-- The handler that relays an error of a provider. -/
def relay (replyText operation : String) : String → Value → Except PyError Value := fun _ _ => do
  let reply ← decodePacket Runtime.sample replyText.toUTF8
  let payload ← (unwrap Runtime.sample reply operation).mapError .hal
  return .dict payload

end Sample

private theorem relayed_fits : (match decodePacket Runtime.sample Sample.call.toUTF8,
      Sample.relay (Sample.providerReply "[]") "get state" "" .null with
    | .ok message, .error (.hal e) => decide (ErrorFits (requestId message) e)
    | _, _ => false) = true := by
  decide +kernel

/-- A provider error with small details is relayed in one reply. -/
theorem one_reply_per_call_relayed : ∃ message,
    decodePacket Runtime.sample Sample.call.toUTF8 = .ok message ∧ ∃ reply,
      IsReply (requestId message) reply ∧
      accept (Sample.relay (Sample.providerReply "[]") "get state") 0 .executed message ⟨12, []⟩ =
        some ⟨12, [reply]⟩ := by
  have heval := relayed_fits
  split at heval
  · next message e hmessage hrelay =>
    refine ⟨message, hmessage, ?_⟩
    apply (one_reply_per_call Runtime.sample _ message hmessage _ 0 .executed ⟨12, []⟩).mpr
    refine .inr ⟨rfl, fun method payload e' _ hhandler => ?_⟩
    -- the handler raises the same error for every method and payload
    cases hrelay.symm.trans hhandler
    exact of_decide_eq_true heval
  · cases heval

private theorem nested_lost : (match decodePacket Runtime.sample Sample.call.toUTF8,
      decodePacket Runtime.sample (Sample.providerReply "[[[[[[[[[]]]]]]]]]").toUTF8 with
    | .ok message, .ok reply =>
      match unwrap Runtime.sample reply "get state" with
      | .error e => ((accept (fun _ _ => .error (.hal e)) 0 .executed message ⟨12, []⟩).map
          fun server => server.sent.length) == some 0
      | .ok _ => false
    | _, _ => false) = true := by
  decide +kernel

/-- A provider answers `get_state` with an error whose payload is nested as deep as
    a packet may be. The error that `_unwrap` builds is nested one level deeper, and
    the call gets no reply. -/
theorem reply_lost : ¬∀ (rt : Runtime) (data replyData : ByteArray) (message reply : Value),
    decodePacket rt data = .ok message → decodePacket rt replyData = .ok reply →
    ∀ (operation : String) (e : HalError), unwrap rt reply operation = .error e →
    ∀ (nowMs : Int) (server : Server), ∃ packet, IsReply (requestId message) packet ∧
      accept (fun _ _ => .error (.hal e)) nowMs .executed message server =
        some ⟨server.free, server.sent ++ [packet]⟩ := by
  intro hclaim
  have heval := nested_lost
  split at heval
  · next message reply hmessage hreply =>
    split at heval
    · next e he =>
      obtain ⟨packet, -, hpacket⟩ := hclaim Runtime.sample _ _ message reply hmessage hreply
        "get state" e he 0 ⟨12, []⟩
      rw [hpacket] at heval
      cases heval
    · cases heval
  · cases heval

end Server

end MsysHal

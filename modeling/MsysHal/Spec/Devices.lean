import MsysHal.Native.Devices
import MsysHal.Spec.Backlight
import MsysHal.Spec.Management
import MsysHal.Spec.Uncounted

/-!
# Changes that are made and what is answered

After a change was made and verified, `build_set_state` counts a revision, scans again and
writes the state of the device. The request is answered with that state if the second scan
lists the device and the state has room in the response. In every other case the answer is
`HAL_INTERNAL_ERROR` although the change is in effect and the revision was counted.

## Key results

- `foldl_write`: what is written into a buffer, and when it has room
- `change_leaves`: up to the change no revision is counted
- `setState_defined`: no arithmetic overflows
- `change_reported_iff`: when a change is reported
-/

namespace MsysHal.Native.Devices

open Interleave (Log Does Keeps Composes within does_pure does_bind does_get_bind
  does_modify_bind does_within)
open Json

/-! ## Writing -/

/-- What the loop of `buffer_string` writes. -/
def escapedFrom : Nat → Bytes → Bytes
  | 0, _ => []
  | _ + 1, [] => []
  | fuel + 1, value :: tail =>
    let unit := stringUnit value (value :: tail)
    unit.1 ++ escapedFrom fuel ((value :: tail).drop unit.2)

/-- The bytes of a piece. -/
def Piece.bytes : Piece → Bytes
  | .text bytes => bytes
  | .string bytes => 0x22 :: (escapedFrom bytes.length bytes ++ [0x22])

/-- The text of pieces. -/
def textOf (pieces : List Piece) : Bytes := pieces.flatMap Piece.bytes

/-- There is room for the NUL. -/
def Terminated (buffer : JsonBuffer) : Prop :=
  buffer.failed = false → buffer.data.length < buffer.capacity

/-- A text is written behind the data if it has room there, else the buffer fails. -/
structure Writes (buffer : JsonBuffer) (text : Bytes) (buffer' : JsonBuffer) : Prop where
  capacity : buffer'.capacity = buffer.capacity
  failed : buffer'.failed = false ↔
    buffer.failed = false ∧ buffer.data.length + text.length < buffer.capacity
  data : buffer'.failed = false → buffer'.data = buffer.data ++ text

namespace Writes

variable {buffer buffer' buffer'' : JsonBuffer} {text text' : Bytes}

theorem terminated (h : Writes buffer text buffer') : Terminated buffer' := by
  intro hok
  rw [h.data hok, h.capacity, List.length_append]
  exact (h.failed.mp hok).2

theorem refl (h : Terminated buffer) : Writes buffer [] buffer where
  capacity := rfl
  failed := ⟨fun hok => ⟨hok, h hok⟩, fun hok => hok.1⟩
  data _ := (List.append_nil _).symm

theorem trans (h : Writes buffer text buffer') (h' : Writes buffer' text' buffer'') :
    Writes buffer (text ++ text') buffer'' where
  capacity := h'.capacity.trans h.capacity
  failed := by
    rw [h'.failed, h.capacity, List.length_append, ← Nat.add_assoc]
    constructor
    · rintro ⟨hok, hroom⟩
      rw [h.data hok, List.length_append] at hroom
      exact ⟨(h.failed.mp hok).1, hroom⟩
    · rintro ⟨hok, hroom⟩
      have hfirst : buffer'.failed = false := h.failed.mpr ⟨hok, by omega⟩
      rw [h.data hfirst, List.length_append]
      exact ⟨hfirst, hroom⟩
  data hok := by
    rw [h'.data hok, h.data (h'.failed.mp hok).1, List.append_assoc]

theorem append (h : Terminated buffer) (text : Bytes) :
    Writes buffer text (buffer.append text) := by
  rw [JsonBuffer.append]
  cases hfailed : buffer.failed with
  | true =>
    refine ⟨rfl, ?_, ?_⟩ <;> simp [hfailed]
  | false =>
    have hterminated := h hfailed
    by_cases hroom : text.length > buffer.capacity - buffer.data.length - 1
    · refine ⟨?_, ?_, ?_⟩
      · simp [hroom]
      · simp [hroom, hfailed]
        omega
      · simp [hroom]
    · refine ⟨?_, ?_, ?_⟩
      · simp [hroom]
      · simp [hroom, hfailed]
        omega
      · simp [hroom]

/-- The loop of `buffer_string`, by induction on its turns. -/
theorem escaped (fuel : Nat) {buffer : JsonBuffer} (h : Terminated buffer) (cursor : Bytes) :
    Writes buffer (escapedFrom fuel cursor) (bufferStringFrom fuel cursor buffer) := by
  induction fuel generalizing buffer cursor with
  | zero => exact .refl h
  | succ fuel ih =>
    rw [bufferStringFrom.eq_def]
    dsimp only
    split
    · next hfailed => exact ⟨rfl, by simp [hfailed], by simp [hfailed]⟩
    · cases cursor with
      | nil => exact .refl h
      | cons value tail =>
        have hunit := Writes.append h (stringUnit value (value :: tail)).1
        exact hunit.trans (ih hunit.terminated _)

theorem write (h : Terminated buffer) (piece : Piece) :
    Writes buffer piece.bytes (JsonBuffer.write buffer piece) := by
  cases piece with
  | text bytes => exact .append h bytes
  | string bytes =>
    have hquote := Writes.append h [0x22]
    have hbody := Writes.escaped bytes.length hquote.terminated bytes
    exact (hquote.trans hbody).trans (.append hbody.terminated [0x22])

end Writes

/-- The pieces of a state are written one behind the other. -/
theorem foldl_write {buffer : JsonBuffer} (h : Terminated buffer) (pieces : List Piece) :
    Writes buffer (textOf pieces) (pieces.foldl JsonBuffer.write buffer) := by
  induction pieces generalizing buffer with
  | nil => exact .refl h
  | cons piece pieces ih =>
    have hpiece := Writes.write h piece
    exact hpiece.trans (ih hpiece.terminated)

theorem terminated_bufferInit (allocated : Bool) : Terminated (bufferInit allocated) := by
  cases allocated with
  | false => exact nofun
  | true => exact fun _ => by decide

/-- A response has room for a text of less than 192 KiB, where there is memory for it. -/
theorem response_writes (allocated : Bool) (pieces : List Piece) :
    (pieces.foldl JsonBuffer.write (bufferInit allocated)).failed = false ↔
      allocated = true ∧ (textOf pieces).length < maxResponseJson := by
  rw [(foldl_write (terminated_bufferInit allocated) pieces).failed]
  cases allocated with
  | false => simp [bufferInit]
  | true => simp [bufferInit]

/-! ## Before the change is counted -/

variable {g g' : Globals} {log : Log deviceSig}

/-- The program counts no revision, and what it returns satisfies `P`. -/
def Leaves {α : Type} (P : α → Prop) (p : DeviceM α) : Prop :=
  ∀ g log a g', Does p g log a g' → g'.revision = g.revision ∧ P a

section Leaves

variable {α β : Type} {P : α → Prop}

theorem leaves_pure {a : α} (h : P a) : Leaves P (pure a : DeviceM α) := by
  intro g log b g' hdoes
  obtain ⟨-, rfl, rfl⟩ := does_pure.mp hdoes
  exact ⟨rfl, h⟩

theorem leaves_bind {Q : β → Prop} {p : DeviceM α} {f : α → DeviceM β} (hp : Leaves P p)
    (hf : ∀ a, P a → Leaves Q (f a)) : Leaves Q (p >>= f) := by
  intro g log b g' hdoes
  obtain ⟨a, g₁, log₁, log₂, -, hfirst, hsecond⟩ := does_bind.mp hdoes
  obtain ⟨hrevision, ha⟩ := hp g log₁ a g₁ hfirst
  obtain ⟨hrevision', hb⟩ := hf a ha g₁ log₂ b g' hsecond
  exact ⟨hrevision'.trans hrevision, hb⟩

theorem leaves_step (o : DeviceOp) : Leaves (fun _ => True) (step o) := by
  intro g log r g' hdoes
  obtain ⟨-, rfl⟩ := Interleave.does_ask.mp hdoes
  exact ⟨rfl, trivial⟩

theorem leaves_native {p : NativeM α} (h : Keeps SameRevision p) :
    Leaves (fun _ => True) (native p) := by
  intro g log a g' hdoes
  obtain ⟨log', g₁, hown, rfl⟩ := does_within hdoes
  exact ⟨h _ _ _ _ hown, trivial⟩

theorem leaves_wifi {p : WifiM α} (h : Keeps Same p) : Leaves (fun _ => True) (wifi p) := by
  intro g log a g' hdoes
  obtain ⟨log', s', hown, rfl⟩ := does_within hdoes
  exact ⟨h _ _ _ _ hown, trivial⟩

theorem leaves_backlight {p : BacklightM α} (h : Keeps Same p)
    (hP : ∀ s log a s', Does p s log a s' → P a) : Leaves P (backlight p) := by
  intro g log a g' hdoes
  obtain ⟨log', s', hown, rfl⟩ := does_within hdoes
  exact ⟨h _ _ _ _ hown, hP _ _ _ _ hown⟩

end Leaves

theorem scanDevices_leaves : Leaves (fun _ => True) scanDevices :=
  leaves_bind (leaves_step _) fun _ _ =>
    leaves_bind (leaves_native scanBluetooth_revision) fun _ _ =>
    leaves_bind (leaves_step _) fun _ _ => leaves_pure trivial

/-- A change comes to a refusal or is made: no arithmetic overflows. -/
def Comes (result : Changed) : Prop := result ≠ .error .overflow

theorem comes_written (written : Bool) :
    Leaves Comes
      (pure (if written then .ok none else .error (.refused .internal)) : DeviceM Changed) := by
  cases written <;> exact leaves_pure nofun

theorem comes_ofRefusal (refusal : Option Refusal) :
    Leaves Comes (pure (.ofRefusal refusal) : DeviceM Changed) := by
  cases refusal <;> exact leaves_pure nofun

theorem changeNetwork_leaves (device : WifiDevice) (changes : List (Bytes × JsonToken)) :
    Leaves Comes (changeNetwork device changes) := by
  rw [changeNetwork]
  split
  · refine leaves_bind (leaves_wifi (wifiAction_same device changes)) fun result _ => ?_
    cases result <;> exact leaves_pure nofun
  · rw [changeNetworkPower]
    split
    · exact leaves_pure nofun
    · refine leaves_bind (leaves_native (radioPower_revision .network)) fun radio _ => ?_
      cases radio with
      | none => exact leaves_pure nofun
      | some radio =>
        dsimp only
        split
        · exact leaves_pure nofun
        · exact leaves_bind (leaves_native (setRadioPower_revision .network _)) fun written _ =>
            comes_written written

theorem changeBluetooth_leaves (device : NativeDevice) (changes : List (Bytes × JsonToken)) :
    Leaves Comes (changeBluetooth device changes) := by
  rw [changeBluetooth]
  split
  · split
    · exact leaves_bind (leaves_native (bluetoothAction_revision device)) fun refusal _ =>
        comes_ofRefusal refusal
    · exact leaves_pure nofun
  · split
    · exact leaves_pure nofun
    · exact leaves_bind (leaves_native (changePowered_revision device _)) fun refusal _ =>
        comes_ofRefusal refusal

theorem changeBacklight_leaves {device : BacklightDevice} (hm : 1 ≤ device.maximum)
    (hm' : device.maximum < 2 ^ 31)
    (changes : List (Bytes × JsonToken)) : Leaves Comes (changeBacklight device changes) := by
  rw [changeBacklight]
  split
  · next failure hfailed =>
    refine leaves_pure fun heq => ?_
    obtain rfl := Except.error.inj heq
    exact requestedBrightness_defined (by omega) hm' changes hfailed
  · exact leaves_bind (leaves_backlight (writeBrightness_same _ _) fun _ _ _ _ _ => trivial)
      fun written _ =>
      comes_written written

theorem changeRfkill_leaves (name : String) (changes : List (Bytes × JsonToken)) :
    Leaves Comes (changeRfkill name changes) := by
  rw [changeRfkill]
  split
  · exact leaves_pure nofun
  · refine leaves_bind (leaves_native (readI64File_revision 0 1 _)) fun hard _ => ?_
    split
    · exact leaves_bind (leaves_native (writeI64Verified_revision _ _)) fun written _ =>
        comes_written written
    · exact leaves_pure nofun

/-- Up to the change no revision is counted, one case for each kind of device. -/
theorem change_leaves (identifier : Bytes) (changes : List (Bytes × JsonToken)) :
    Leaves Comes (change identifier changes) := by
  refine leaves_bind scanDevices_leaves fun devices _ => ?_
  cases findDevice devices identifier with
  | none => exact leaves_pure nofun
  | some device =>
    dsimp only
    split
    · exact leaves_pure nofun
    · cases device with
      | network device => exact changeNetwork_leaves device changes
      | bluetooth device => exact changeBluetooth_leaves device changes
      | backlight device hm hm' => exact changeBacklight_leaves hm hm' changes
      | rfkill domain name => exact changeRfkill_leaves name changes
      | _ => exact leaves_pure nofun

/-! ## The state -/

/-- The brightness of a listed backlight is within its maximum, and so is the arithmetic. -/
theorem appendBrightness_ok {device : BacklightDevice} (hm : 1 ≤ device.maximum)
    (hm' : device.maximum < 2 ^ 31)
    {s s' : UInt64} {log : Log backlightSig} {result : Except Failure (Option BrightnessValues)}
    (h : Does (appendBrightness device) s log result s') : ∃ values, result = .ok values := by
  obtain ⟨brightness, s₁, log₁, log₂, rfl, hread, hgo⟩ := does_bind.mp h
  obtain ⟨data, log₃, -, hpure⟩ := Interleave.does_ask_bind.mp hread
  obtain ⟨-, rfl, -⟩ := does_pure.mp hpure
  split at hgo
  · obtain ⟨-, rfl, -⟩ := does_pure.mp hgo
    exact ⟨none, rfl⟩
  · next b hsome =>
    obtain ⟨hb, hbm⟩ := fileI64_bounds hsome
    obtain ⟨-, rfl, -⟩ := does_pure.mp hgo
    rw [brightnessPercent_eq hb hbm hm hm']
    exact ⟨_, rfl⟩

/-- The values of a device can always be given. -/
theorem readValues_leaves (device : Device) (persisted : Option Bool) :
    Leaves (fun result => ∃ values, result = .ok values) (readValues device persisted) := by
  have hattribute (domain name file : String) : Leaves (fun _ => True)
      (readText domain name file) :=
    leaves_bind (leaves_step _) fun _ _ => leaves_pure trivial
  have hinteger (domain name file : String) (minimum maximum : Int) :
      Leaves (fun _ => True) (readInteger domain name file minimum maximum) :=
    leaves_bind (leaves_step _) fun _ _ => leaves_pure trivial
  cases device with
  | power name =>
    exact leaves_bind (hattribute _ _ _) fun _ _ => leaves_bind (hattribute _ _ _) fun _ _ =>
      leaves_bind (hinteger _ _ _ _ _) fun _ _ => leaves_bind (hinteger _ _ _ _ _) fun _ _ =>
        leaves_pure ⟨_, rfl⟩
  | thermal name =>
    exact leaves_bind (hattribute _ _ _) fun _ _ => leaves_bind (hinteger _ _ _ _ _) fun _ _ =>
      leaves_pure ⟨_, rfl⟩
  | backlight device hm hm' =>
    refine leaves_bind (leaves_backlight (appendBrightness_same device) fun _ _ _ _ =>
      appendBrightness_ok hm hm') fun values hvalues => ?_
    obtain ⟨v, rfl⟩ := hvalues
    exact leaves_pure ⟨_, rfl⟩
  | input name => exact leaves_pure ⟨_, rfl⟩
  | network device =>
    exact leaves_bind (leaves_wifi (appendWifiState_same device persisted)) fun _ _ =>
      leaves_pure ⟨_, rfl⟩
  | bluetooth device =>
    exact leaves_bind (leaves_native (appendState_revision device)) fun _ _ => leaves_pure ⟨_, rfl⟩
  | rfkill domain name =>
    have hread := readI64File_revision 0 1
    exact leaves_bind (leaves_native (hread _)) fun _ _ =>
      leaves_bind (leaves_native (hread _)) fun _ _ => leaves_pure ⟨_, rfl⟩

/-- How a response that carries a revision starts. -/
def responseHead (revision : UInt64) : Bytes :=
  ascii "\x7b\"schema\":\"org.msys.hal.manager.v1\",\"revision\":" ++
    (ascii (toString revision) ++ ascii ",\"provider\":\"org.msys.hal.linux:native-manager\",")

theorem responseHead_prefix (revision : UInt64) (device : Device) (persisted : Option Bool)
    (values : Values) :
    responseHead revision <+: textOf (statePieces revision device persisted values) := by
  have hprovider : ascii
      ",\"provider\":\"org.msys.hal.linux:native-manager\",\"state\":\x7b\"id\":" =
      ascii ",\"provider\":\"org.msys.hal.linux:native-manager\"," ++
        ascii "\"state\":\x7b\"id\":" := by decide
  simp only [statePieces, textOf, responseHead, List.append_assoc, List.cons_append,
    List.flatMap_cons, lit, Piece.bytes, hprovider]
  rw [List.prefix_append_right_inj, List.prefix_append_right_inj]
  exact List.prefix_append _ _

/-- The scan of the answers lists the device, and its state has room in the response. -/
def Shown (allocated : Bool) (identifier : Bytes) (persisted : Option Bool) (g : Globals)
    (log : Log deviceSig) : Prop :=
  ∃ scanned read devices g₁ device values g₂, log = scanned ++ read ∧
  Does scanDevices g scanned devices g₁ ∧
    findDevice devices identifier = some device ∧
      Does (readValues device persisted) g₁ read (.ok values) g₂ ∧
    allocated = true ∧ (textOf (statePieces g.revision device persisted values)).length <
      maxResponseJson

/-- What follows a change is one revision more, and the state where it can be shown. -/
theorem changedState_does {allocated : Bool} {identifier : Bytes} {persisted : Option Bool}
    {reply : Except Failure Bytes}
    (h : Does (changedState allocated identifier persisted) g log reply g') :
    g'.revision = g.revision + 1 ∧
      (Shown allocated identifier persisted { g with revision := g.revision + 1 } log ∧
          (∃ response, reply = .ok response ∧ responseHead (g.revision + 1) <+: response) ∨
        ¬ Shown allocated identifier persisted { g with revision := g.revision + 1 } log ∧
          reply = .error (.refused .internal)) := by
  rw [changedState, does_modify_bind] at h
  obtain ⟨devices, g₁, scanned, read, rfl, hscan, hgo⟩ := does_bind.mp h
  obtain ⟨hrevision, -⟩ := scanDevices_leaves _ _ _ _ hscan
  cases hfind : findDevice devices identifier with
  -- The device left the list: the reply is an error, although the write was made.
  | none =>
    rw [hfind] at hgo
    obtain ⟨rfl, rfl, rfl⟩ := does_pure.mp hgo
    refine ⟨hrevision, .inr ⟨?_, rfl⟩⟩
    rintro ⟨scanned', read', devices', g₂, device, values, g₃, heq, hscan', hfound, -⟩
    obtain ⟨-, rfl, -⟩ := hscan.unique_front hscan' heq
    rw [hfind] at hfound
    exact nomatch hfound
  | some device =>
    rw [hfind] at hgo
    obtain ⟨result, g₂, log₃, log₄, rfl, hread, hreturn⟩ := does_bind.mp (does_get_bind.mp hgo)
    obtain ⟨hrevision', values, rfl⟩ := readValues_leaves device persisted _ _ _ _ hread
    obtain ⟨rfl, rfl, rfl⟩ := does_pure.mp hreturn
    refine ⟨hrevision'.trans hrevision, ?_⟩
    rw [show g₁.revision = g.revision + 1 from hrevision]
    have hwrites := foldl_write (terminated_bufferInit allocated)
      (statePieces (g.revision + 1) device persisted values)
    -- The state is shown exactly when it fits the buffer.
    cases hfailed : ((statePieces (g.revision + 1) device persisted values).foldl JsonBuffer.write
        (bufferInit allocated)).failed with
    | false =>
      obtain ⟨hallocated, hroom⟩ := (response_writes allocated _).mp hfailed
      refine .inl ⟨⟨scanned, log₃, devices, g₁, device, values, _, by rw [List.append_nil], hscan,
        hfind, hread, hallocated, hroom⟩, _, rfl, ?_⟩
      rw [hwrites.data hfailed]
      exact responseHead_prefix _ _ _ _
    | true =>
      refine .inr ⟨?_, rfl⟩
      rintro ⟨scanned', read', devices', g₃, device', values', g₄, heq, hscan', hfound,
        hread', hroom⟩
      -- The answers determine the device and what is read of it.
      obtain ⟨rfl, rfl, rfl⟩ := hscan.unique_front hscan' heq
      obtain rfl := Option.some.inj (hfind.symm.trans hfound)
      rw [List.append_nil, List.append_cancel_left_eq] at heq
      obtain ⟨-, hvalues, -⟩ := hread.unique_front hread' (congrArg (· ++ []) heq)
      obtain rfl := Except.ok.inj hvalues
      rw [(response_writes allocated _).mpr hroom] at hfailed
      exact nomatch hfailed

/-! ## Requests -/

/-- A reply that tells what happened: success with the state after one more revision, or an
    error and no revision. -/
def Reported (g : Globals) (reply : Except Failure Bytes) (g' : Globals) : Prop :=
  match reply with
  | .ok response => g'.revision = g.revision + 1 ∧ responseHead g'.revision <+: response
  | .error _ => g'.revision = g.revision

/-- A request is reported truly if and only if the device of a change that is made is shown
    afterwards. -/
theorem change_reported_iff {allocated : Bool} {payload : Option (List (Bytes × JsonToken))}
    {g g' : Globals}
    {log : Log deviceSig} {reply : Except Failure Bytes}
    (h : Does (setState allocated payload) g log reply g') :
    Reported g reply g' ↔
      ∀ identifier changes, payload.bind setStateRequest = some (identifier, changes) →
      ∀ before after persisted g₁, log = before ++ after →
        Does (change identifier changes) g before (.ok persisted) g₁ →
        Shown allocated identifier persisted { g₁ with revision := g₁.revision + 1 } after := by
  rw [setState] at h
  cases hrequest : payload.bind setStateRequest with
  | none =>
    rw [hrequest] at h
    obtain ⟨-, rfl, rfl⟩ := does_pure.mp h
    exact ⟨fun _ => nofun, fun _ => rfl⟩
  | some request =>
    obtain ⟨identifier, changes⟩ := request
    rw [hrequest] at h
    obtain ⟨result, g₁, before, after, rfl, hchange, hend⟩ := does_bind.mp h
    obtain ⟨hrevision, -⟩ := change_leaves identifier changes _ _ _ _ hchange
    cases result with
    | error failure =>
      -- The change failed, and the revision stays.
      obtain ⟨rfl, rfl, rfl⟩ := does_pure.mp hend
      refine ⟨fun _ => ?_, fun _ => hrevision⟩
      rintro _ _ ⟨⟩ before' after' persisted g₂ heq hmade
      obtain ⟨-, hresult, -⟩ := hchange.unique_front hmade heq
      exact nomatch hresult
    | ok persisted =>
      -- The change was made: what follows it decides.
      obtain ⟨hcounted, hcases⟩ := changedState_does hend
      rw [hrevision] at hcounted hcases
      constructor
      · intro hreported
        rintro _ _ ⟨⟩ before' after' persisted' g₂ heq hmade
        -- The answers determine the run, so this is the change that was made.
        obtain ⟨rfl, hresult, rfl⟩ := hchange.unique_front hmade heq
        cases hresult
        rw [List.append_cancel_left_eq] at heq
        subst heq
        obtain ⟨hshown, -⟩ | ⟨-, rfl⟩ := hcases
        · rwa [hrevision]
        · exact absurd (hcounted.symm.trans hreported) (by simp)
      · intro hall
        obtain ⟨-, response, rfl, hhead⟩ | ⟨hnot, -⟩ := hcases
        · exact ⟨hcounted, by rw [hcounted]; exact hhead⟩
        · refine absurd ?_ hnot
          rw [← hrevision]
          exact hall identifier changes rfl before after persisted g₁ rfl hchange

/-- No request comes to an overflow. -/
theorem setState_defined {allocated : Bool} {payload : Option (List (Bytes × JsonToken))}
    {reply : Except Failure Bytes}
    (h : Does (setState allocated payload) g log reply g') : reply ≠ .error .overflow := by
  rw [setState] at h
  split at h
  · obtain ⟨-, rfl, -⟩ := does_pure.mp h
    exact nofun
  · next identifier changes _ =>
    obtain ⟨result, g₁, before, after, rfl, hchange, hend⟩ := does_bind.mp h
    obtain ⟨-, hcomes⟩ := change_leaves identifier changes _ _ _ _ hchange
    cases result with
    | error failure =>
      obtain ⟨-, rfl, -⟩ := does_pure.mp hend
      exact fun heq => hcomes (congrArg _ (Except.error.inj heq))
    | ok persisted =>
      obtain ⟨-, ⟨-, response, rfl, -⟩ | ⟨-, rfl⟩⟩ := changedState_does hend <;> exact nofun

namespace Sample

/-- The request to switch the radio `rfkill0` off. -/
def powerOff : List (Bytes × JsonToken) :=
  [(ascii "id", .string (ascii "bluetooth:rfkill0")),
    (ascii "changes", .object [(ascii "powered", .primitive (ascii "false"))])]

/-- A system with one Bluetooth radio, as long as it is listed, that is switched off. -/
def radioSystem (listed : Bool) : (o : DeviceOp) → o.Ret
  | .rows => []
  | .radios => if listed then [(.bluetooth, "rfkill0", true)] else []
  | .attribute _ _ _ => none
  | .native (.list _) => some []
  | .native (.read file) => some (ascii (if file.file = "hard" then "0\n" else "1\n"))
  | .native o => Native.Sample.delivers [] o
  | .wifi .scan => []
  | .wifi (.available _) => false
  | .wifi (.exchange _ _) => none
  | .wifi (.text _ _) => none
  | .wifi (.integer _ _ _ _) => none
  | .wifi .radio => none
  | .backlight .scan => []
  | .backlight (.read _) => none
  | .backlight (.write _ _) => false

end Sample

/-- The radio is there afterwards. -/
theorem change_reported_listed :
    ∃ log reply g', Does (setState true (some Sample.powerOff)) {} log reply g' ∧
    ∀ identifier changes, setStateRequest Sample.powerOff = some (identifier, changes) →
      ∀ before after persisted g₁, log = before ++ after →
        Does (change identifier changes) {} before (.ok persisted) g₁ →
        Shown true identifier persisted { g₁ with revision := g₁.revision + 1 } after := by
  have heval : ((setState true (some Sample.powerOff) {}).feed
      (List.replicate 13 (Sample.radioSystem true))).any
      (fun x => x.1.2.revision == 1 && x.1.1.toOption.any (responseHead 1).isPrefixOf) = true := by
    decide +kernel
  obtain ⟨x, hx, htest⟩ := (Option.any_eq_true _ _).mp heval
  rw [Bool.and_eq_true, beq_iff_eq] at htest
  have hdoes := Does.of_feed hx
  refine ⟨_, _, _, hdoes, (change_reported_iff hdoes).mp ?_⟩
  cases hreply : x.1.1 with
  | ok response =>
    rw [hreply] at htest
    exact ⟨htest.1, htest.1 ▸ List.isPrefixOf_iff_prefix.mp htest.2⟩
  | error failure =>
    rw [hreply] at htest
    exact nomatch htest.2

/-- The radio leaves when it is switched off: the answer is an error, and the revision is counted.
    -/
theorem change_unreported : ¬ ∀ allocated payload g log reply g',
    Does (setState allocated payload) g log reply g' → Reported g reply g' := by
  intro hall
  have heval : ((setState true (some Sample.powerOff) {}).feed
      (List.replicate 7 (Sample.radioSystem true) ++ List.replicate 4
        (Sample.radioSystem false))).any
      (fun x => !x.1.1.isOk && x.1.2.revision == 1) = true := by
    decide +kernel
  obtain ⟨x, hx, htest⟩ := (Option.any_eq_true _ _).mp heval
  rw [Bool.and_eq_true, Bool.not_eq_true', beq_iff_eq] at htest
  have hreported := hall _ _ _ _ _ _ (Does.of_feed hx)
  cases hreply : x.1.1 with
  | ok response =>
    rw [hreply] at htest
    exact nomatch htest.1
  | error failure =>
    rw [hreply] at hreported
    exact absurd (htest.2.symm.trans hreported) (by decide)

end MsysHal.Native.Devices

import MsysHal.Native.Devices
import MsysHal.Spec.Client

/-!
# Functions that count no revision

`revision_number` is written by `build_set_state` alone, after a change was made. The
functions that it runs before and after, those of the Management client, the radios,
wpa_supplicant and the backlights, leave the number as they find it.

## Key results

- `scanBluetooth_revision`, `bluetoothAction_revision`, `changePowered_revision`: the
  functions on the globals of the client
- `wifiAction_same`, `appendWifiState_same`, `writeBrightness_same`: the functions whose
  memory is the number itself
-/

namespace MsysHal.Native

open Interleave (Log Does Composes Keeps does_pure does_bind)

/-! ## The Management client and the radios -/

/-- The number is the same afterwards. -/
def SameRevision (g : Globals) (_ : Log nativeSig) (g' : Globals) : Prop := g'.revision = g.revision

theorem SameRevision.composes : Composes SameRevision where
  nil _ := rfl
  append h h' := h'.trans h

theorem SameRevision.respects : Respects (fun _ => True) SameRevision where
  composes := SameRevision.composes
  call _ _ _ := rfl
  quiet _ hrevision := hrevision
  receive _ := by
    have hpure (result : EventResult) : Keeps SameRevision (pure result : NativeM EventResult) :=
      .pure SameRevision.composes result
    have herror (stage : Stage) (code : Int) (result : EventResult) :
        Keeps SameRevision (bluetoothError stage code >>= fun _ =>
          (pure result : NativeM EventResult)) :=
      .bind SameRevision.composes (.modify fun _ => rfl) fun _ => hpure result
    refine .bind SameRevision.composes (.ask fun _ _ => rfl) fun answer => ?_
    cases answer with
    | idle code => exact herror _ _ _
    | failed code => exact herror _ _ _
    | packet data =>
      dsimp only
      split
      · exact herror _ _ _
      · exact .bind SameRevision.composes (.modify fun _ => rfl) fun _ => hpure _
      · exact hpure _
      · exact hpure _
      · exact hpure _

theorem allows_every : Allows fun _ => True where
  probe _ := trivial
  set _ := trivial
  wait _ := trivial
  list _ := trivial
  read _ := trivial
  writable _ := trivial
  realpath _ := trivial
  slots := trivial

theorem readI64File_revision (minimum maximum : Int) (file : SysFile) :
    Keeps SameRevision (readI64File minimum maximum file) :=
  readI64File_keeps SameRevision.respects allows_every minimum maximum file

theorem writeI64Verified_revision (file : SysFile) (requested : Int) :
    Keeps SameRevision (writeI64Verified file requested) :=
  writeI64Verified_keeps SameRevision.respects allows_every trivial

theorem radioPower_revision (domain : RadioDomain) : Keeps SameRevision (radioPower domain) :=
  radioPower_keeps SameRevision.respects allows_every domain

theorem setRadioPower_revision (domain : RadioDomain) (powered : Bool) :
    Keeps SameRevision (setRadioPower domain powered) :=
  setRadioPower_keeps SameRevision.respects allows_every (fun _ _ => trivial) domain powered

theorem scanBluetooth_revision : Keeps SameRevision scanBluetooth :=
  scanBluetooth_keeps SameRevision.respects allows_every

theorem appendState_revision (device : NativeDevice) : Keeps SameRevision (appendState device) :=
  appendState_keeps SameRevision.respects allows_every device

theorem changePowered_revision (device : NativeDevice) (powered : Bool) :
    Keeps SameRevision (changePowered device powered) :=
  changePowered_keeps SameRevision.respects (requestBluetoothPower_keeps SameRevision.respects
    allows_every (fun _ => trivial) (fun _ => setRadioPower_revision .bluetooth) device.name)

private theorem discover_revision (index rounds : Nat) :
    Keeps SameRevision (discover index rounds) := by
  induction rounds with
  | zero => exact keeps_pure SameRevision.respects _
  | succ rounds ih =>
    exact keeps_bind SameRevision.respects (SameRevision.respects.receive trivial) fun _ => ih

private theorem scanBluetoothDevices_revision (interface : String) :
    Keeps SameRevision (scanBluetoothDevices interface) := by
  have hR := SameRevision.respects
  refine keeps_bind hR (bluetoothInfo_keeps hR fun _ _ => trivial) fun info => ?_
  cases info with
  | none => exact keeps_pure hR _
  | some info =>
    dsimp only
    split
    · exact keeps_pure hR _
    · refine keeps_bind hR (bluetoothSocket_keeps hR trivial trivial) fun opened => ?_
      cases opened with
      | false => exact keeps_pure hR _
      | true =>
        refine keeps_bind hR (.modify fun _ => rfl) fun _ => ?_
        refine keeps_bind hR (mgmtCommand_keeps hR trivial trivial) fun reply => ?_
        cases reply with
        | none => exact keeps_pure hR _
        | some response =>
          refine keeps_bind hR (keeps_call hR (o := .rounds) trivial) fun rounds => ?_
          refine keeps_bind hR (discover_revision info.index (rounds + 1)) fun _ => ?_
          exact keeps_bind hR (mgmtCommand_keeps hR trivial trivial) fun _ => keeps_pure hR _

theorem bluetoothAction_revision (device : NativeDevice) :
    Keeps SameRevision (bluetoothAction device) :=
  bluetoothAction_keeps SameRevision.respects (scanBluetoothDevices_revision device.name)

/-! ## Functions whose memory is the number -/

section Same

variable {S : Interleave.Sig} {α β : Type}

/-- The memory is the same afterwards. -/
def Same (s : UInt64) (_ : Log S) (s' : UInt64) : Prop := s' = s

theorem Same.composes : Composes (Same (S := S)) where
  nil _ := rfl
  append h h' := h'.trans h

theorem same_pure (a : α) : Keeps Same (pure a : Interleave.Proc S UInt64 α) :=
  .pure Same.composes a

theorem same_bind {p : Interleave.Proc S UInt64 α} {f : α → Interleave.Proc S UInt64 β}
    (hp : Keeps Same p) (hf : ∀ a, Keeps Same (f a)) : Keeps Same (p >>= f) :=
  .bind Same.composes hp hf

theorem same_ask (o : S.Op) : Keeps Same (Interleave.ask o : Interleave.Proc S UInt64 _) :=
  .ask fun _ _ => rfl

end Same

/-! ### wpa_supplicant -/

theorem wpaRequest_same (interface : String) (command : Bytes) (capacity : Nat) :
    Keeps Same (wpaRequest interface command capacity) := by
  rw [wpaRequest]
  split
  · exact same_pure _
  · refine same_bind (same_ask _) fun answer => ?_
    cases answer with
    | none => exact same_pure _
    | some datagram => exact same_pure _

/-- A command, with what follows each outcome. -/
private theorem wpaOk_same {α : Type} {interface : String} {command : Bytes} {p q : WifiM α}
    (hp : Keeps Same p) (hq : Keeps Same q) :
    Keeps Same (wpaOk interface command >>= fun ok => if ok = true then p else q) := by
  refine same_bind (same_bind (wpaRequest_same interface command 32) fun _ => same_pure _) fun ok =>
    ?_
  split
  · exact hp
  · exact hq

/-- The last command of an action. -/
private theorem wpaOk_last {α : Type} {interface : String} {command : Bytes} (f : Bool → α) :
    Keeps Same (wpaOk interface command >>= fun ok => (pure (f ok) : WifiM α)) :=
  same_bind (same_bind (wpaRequest_same interface command 32) fun _ => same_pure _) fun _ =>
    same_pure _

theorem cleanupNetwork_same (interface : String) (n : Int) :
    Keeps Same (cleanupNetwork interface n) :=
  wpaOk_last _

theorem protectNetwork_same (interface : String) (n : Int) (credential : Credential) :
    Keeps Same (protectNetwork interface n credential) := by
  rw [protectNetwork]
  have hcleanup := cleanupNetwork_same interface n
  split
  · exact hcleanup
  · exact wpaOk_same (wpaOk_same (wpaOk_same (wpaOk_last _) hcleanup) hcleanup) hcleanup

theorem connectNew_same (interface : String) (ssid : Bytes) (credential : Credential) :
    Keeps Same (connectNew interface ssid credential) := by
  refine same_bind (wpaRequest_same interface _ 32) fun response => ?_
  split
  · exact same_pure _
  · next n _ =>
    exact wpaOk_same (protectNetwork_same interface n credential) (cleanupNetwork_same interface n)

theorem connectConfigured_same (interface : String) (n : Int) :
    Keeps Same (connectConfigured interface n) :=
  wpaOk_same (wpaOk_same (same_pure _) (same_pure _)) (same_pure _)

theorem connect_same (interface : String) (changes : List (Bytes × JsonToken)) :
    Keeps Same (connect interface changes) := by
  rw [connect]
  split
  · exact same_pure _
  · next ssid credential _ =>
    have hfound : Keeps Same (configuredNetworkId interface ssid) :=
      same_bind (wpaRequest_same interface _ _) fun _ => same_pure _
    refine same_bind hfound fun found => ?_
    cases found with
    | none => exact same_pure _
    | some found =>
      dsimp only
      split
      · exact same_pure _
      · split
        · split
          · exact connectConfigured_same interface found.networkId
          · exact same_pure _
        · split
          · exact same_pure _
          · exact connectNew_same interface ssid credential

theorem trigger_same (interface command : String) (changes : List (Bytes × JsonToken)) :
    Keeps Same (trigger interface command changes) := by
  rw [trigger]
  split
  · exact same_pure _
  · exact wpaOk_same (same_pure _) (same_pure _)

theorem forget_same (interface : String) (changes : List (Bytes × JsonToken)) :
    Keeps Same (forget interface changes) := by
  rw [forget]
  split
  · exact same_pure _
  · exact wpaOk_same (wpaOk_last _) (same_pure _)

/-- Every action, whatever wpa_supplicant answers. -/
theorem wifiAction_same (device : WifiDevice) (changes : List (Bytes × JsonToken)) :
    Keeps Same (wifiAction device changes) := by
  rw [wifiAction]
  split
  · exact same_pure _
  · split
    · exact trigger_same device.name "SCAN" changes
    · split
      · exact trigger_same device.name "DISCONNECT" changes
      · split
        · exact forget_same device.name changes
        · split
          · exact connect_same device.name changes
          · exact same_pure _

theorem appendWifiValues_same (interface : String) : Keeps Same (appendWifiValues interface) := by
  refine same_bind (same_ask _) fun available => ?_
  split
  · refine same_bind (wpaRequest_same interface _ _) fun status => ?_
    split
    · exact same_pure _
    · exact same_bind (wpaRequest_same interface _ _) fun _ =>
        same_bind (wpaRequest_same interface _ _) fun _ => same_pure _
  · exact same_pure _

theorem appendWifiState_same (device : WifiDevice) (persisted : Option Bool) :
    Keeps Same (appendWifiState device persisted) := by
  have hpart : Keeps Same (wifiPart device) := by
    rw [wifiPart]
    split
    · exact same_bind (same_ask _) fun _ =>
        same_bind (appendWifiValues_same device.name) fun _ => same_pure _
    · exact same_pure _
  refine same_bind (same_ask _) fun _ => same_bind (same_ask _) fun _ =>
    same_bind (same_ask _) fun _ =>
    same_bind (same_ask _) fun _ => same_bind hpart fun _ => ?_
  exact .get_bind fun _ => same_pure _

/-! ### Backlights -/

theorem readBrightness_same (name : String) (minimum maximum : Int) :
    Keeps Same (readBrightness name minimum maximum) :=
  same_bind (same_ask _) fun _ => same_pure _

theorem writeBrightness_same (name : String) (requested : Int) :
    Keeps Same (writeBrightness name requested) := by
  refine same_bind (same_ask _) fun written => ?_
  split
  · exact same_bind (readBrightness_same name _ _) fun _ => same_pure _
  · exact same_pure _

theorem appendBrightness_same (device : BacklightDevice) :
    Keeps Same (appendBrightness device) := by
  refine same_bind (readBrightness_same device.name _ _) fun brightness => ?_
  cases brightness with
  | none => exact same_pure _
  | some brightness => exact same_pure _

end MsysHal.Native

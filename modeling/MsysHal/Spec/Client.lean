import MsysHal.Spec.Management

/-!
# Relations that the Bluetooth client keeps

A relation between the globals around a run and the answers on the way is kept by
every function of the client if it is kept by its parts: one system call, one
receive, and a change of the globals that leaves the table of discovered devices
alone. Two functions are given by the relation itself, the rfkill write and the
discovery.

## Key results

- `bluetoothInfo_keeps`, `setBluetoothPower_keeps`, `radioPower_keeps`: the functions
  that a request is made of
- `requestBluetoothPower_keeps`, `handle_keeps`: power requests, and all requests
- `Issued.respects`: what holds of every operation issued is such a relation
-/

namespace MsysHal.Native

open Interleave (Log Does Composes Keeps does_pure does_bind does_get_bind)

/-! ## Parts -/

/-- The operations of a `bluetooth_info` call for the controller `preferred`. -/
inductive ProbeOp (preferred : Nat) : NativeOp → Prop where
  | socket : ProbeOp preferred .socket
  | bind : ProbeOp preferred .bind
  | sendList : ProbeOp preferred (.send mgmtOpReadIndexList hciDevNone [])
  | receiveList : ProbeOp preferred
    (.receive 250 mgmtOpReadIndexList hciDevNone (some (2 + maxEntries * 2)))
  | sendInfo : ProbeOp preferred (.send mgmtOpReadInfo preferred [])
  | receiveInfo : ProbeOp preferred (.receive 250 mgmtOpReadInfo preferred (some 512))

/-- The operations of Set Powered for a controller. -/
inductive SetPoweredOp (index : Nat) : NativeOp → Prop where
  | send (payload : Bytes) : SetPoweredOp index (.send mgmtOpSetPowered index payload)
  | receive : SetPoweredOp index (.receive 250 mgmtOpSetPowered index none)

/-- The operations of a request besides rfkill writes, HCIDEVUP and discovery. -/
structure Allows (P : NativeOp → Prop) : Prop where
  probe {preferred : Nat} {o : NativeOp} (h : ProbeOp preferred o) : P o
  set {index : Nat} {o : NativeOp} (h : SetPoweredOp index o) : P o
  wait (milliseconds : Nat) : P (.wait milliseconds)
  list (root : SysClass) : P (.list root)
  read (file : SysFile) : P (.read file)
  writable (file : SysFile) : P (.writable file)
  realpath (interface : String) : P (.realpath interface)
  slots : P .slots

/-- A relation that is kept by the parts of the client, for the operations of `P`. -/
structure Respects (P : NativeOp → Prop) (R : Globals → Log nativeSig → Globals → Prop) :
    Prop where
  composes : Composes R
  call {o : NativeOp} (h : P o) (g : Globals) (r : o.Ret) : R g [⟨o, r⟩] g
  quiet {g g' : Globals} (h : g'.found = g.found) (hrevision : g'.revision = g.revision) : R g [] g'
  receive {timeout opcode index : Nat} {capacity : Option Nat}
    (h : P (.receive timeout opcode index capacity)) :
    Keeps R (receiveMgmtEvent timeout opcode index capacity)

section Client

variable {P : NativeOp → Prop} {R : Globals → Log nativeSig → Globals → Prop} (hR : Respects P R)

include hR

theorem keeps_pure {α : Type} (a : α) : Keeps R (pure a : NativeM α) := .pure hR.composes a

theorem keeps_bind {α β : Type} {p : NativeM α} {f : α → NativeM β} (hp : Keeps R p)
    (hf : ∀ a, Keeps R (f a)) : Keeps R (p >>= f) := .bind hR.composes hp hf

theorem keeps_call {o : NativeOp} (h : P o) : Keeps R (call o) := .ask fun g r => hR.call h g r

theorem keeps_error (stage : Stage) (code : Int) : Keeps R (bluetoothError stage code) :=
  .modify fun _ => hR.quiet rfl rfl

/-! ## The Management socket -/

theorem bluetoothSocket_keeps (hsocket : P .socket) (hbind : P .bind) :
    Keeps R bluetoothSocket := by
  refine keeps_bind hR (keeps_call hR hsocket) fun opened => ?_
  cases opened with
  | some code => exact keeps_bind hR (keeps_error hR .socket code) fun _ => keeps_pure hR _
  | none =>
    refine keeps_bind hR (keeps_call hR hbind) fun bound => ?_
    cases bound with
    | some code => exact keeps_bind hR (keeps_error hR .bind code) fun _ => keeps_pure hR _
    | none => exact keeps_pure hR _

theorem awaitReply_keeps {opcode index : Nat} {capacity : Option Nat}
    (h : P (.receive 250 opcode index capacity)) (attempts : Nat) :
    Keeps R (awaitReply opcode index capacity attempts) := by
  induction attempts with
  | zero => exact keeps_pure hR _
  | succ attempts ih =>
    refine keeps_bind hR (hR.receive h) fun result => ?_
    cases result with
    | reply data => exact keeps_pure hR _
    | failed => exact keeps_pure hR _
    | timeout => exact ih
    | other => exact ih

theorem mgmtCommand_keeps {opcode index : Nat} {payload : Bytes} {capacity : Option Nat}
    (hsend : P (.send opcode index payload)) (hreceive : P (.receive 250 opcode index capacity)) :
    Keeps R (mgmtCommand opcode index payload capacity) := by
  rw [mgmtCommand]
  split
  · exact keeps_pure hR _
  · refine keeps_bind hR (keeps_call hR hsend) fun sent => ?_
    cases sent with
    | some code => exact keeps_bind hR (keeps_error hR .send code) fun _ => keeps_pure hR _
    | none => exact awaitReply_keeps hR hreceive 12

private theorem infoFailed_keeps (n : Nat) : Keeps R (infoFailed n) := by
  refine .get_bind fun g => ?_
  split
  · exact keeps_bind hR (keeps_error hR .readInfo n) fun _ => keeps_pure hR _
  · exact keeps_pure hR _

private theorem mgmtControllerIndex_keeps {preferred : Nat}
    (hprobe : ∀ {o}, ProbeOp preferred o → P o) :
    Keeps R (mgmtControllerIndex preferred) := by
  refine keeps_bind hR (mgmtCommand_keeps hR (hprobe .sendList) (hprobe .receiveList))
    fun reply => ?_
  cases reply with
  | none => exact keeps_pure hR _
  | some response =>
    dsimp only
    split
    · exact keeps_pure hR _
    · exact keeps_bind hR (keeps_error hR _ _) fun _ => keeps_pure hR _
    · exact keeps_pure hR _

/-- A call only talks to the Management socket, about its own controller. -/
theorem bluetoothInfo_keeps {interface : String}
    (hprobe : ∀ {preferred o}, bluetoothIndex interface = some preferred →
      ProbeOp preferred o → P o) :
    Keeps R (bluetoothInfo interface) := by
  rw [bluetoothInfo]
  cases hindex : bluetoothIndex interface with
  | none => exact keeps_pure hR _
  | some preferred =>
    refine keeps_bind hR (bluetoothSocket_keeps hR (hprobe hindex .socket) (hprobe hindex .bind))
      fun opened => ?_
    cases opened with
    | false => exact keeps_pure hR _
    | true =>
      refine keeps_bind hR (mgmtControllerIndex_keeps hR (hprobe hindex)) fun selected => ?_
      cases selected with
      | false => exact infoFailed_keeps hR 0
      | true =>
        refine keeps_bind hR (mgmtCommand_keeps hR (hprobe hindex .sendInfo)
          (hprobe hindex .receiveInfo)) fun reply => ?_
        cases reply with
        | none => exact infoFailed_keeps hR 0
        | some response =>
          dsimp only
          split
          · exact infoFailed_keeps hR response.length
          · exact keeps_bind hR (.modify fun _ => hR.quiet rfl rfl) fun _ => keeps_pure hR _

variable (h : Allows P)

include h

theorem setBluetoothPower_keeps (interface : String) (powered : Bool) :
    Keeps R (setBluetoothPower interface powered) := by
  refine keeps_bind hR (bluetoothInfo_keeps hR fun _ => h.probe) fun r => ?_
  cases r with
  | none => exact keeps_pure hR _
  | some info =>
    refine keeps_bind hR (bluetoothSocket_keeps hR (h.probe (.socket : ProbeOp 0 _))
      (h.probe (.bind : ProbeOp 0 _))) fun opened => ?_
    cases opened with
    | false => exact keeps_pure hR _
    | true =>
      exact keeps_bind hR (mgmtCommand_keeps hR (h.set (.send _)) (h.set .receive))
        fun _ => keeps_pure hR _

/-! ## Radios -/

theorem readTextFile_keeps (capacity : Nat) (file : SysFile) :
    Keeps R (readTextFile capacity file) :=
  keeps_bind hR (keeps_call hR (h.read file)) fun _ => keeps_pure hR _

theorem readI64File_keeps (minimum maximum : Int) (file : SysFile) :
    Keeps R (readI64File minimum maximum file) :=
  keeps_bind hR (keeps_call hR (h.read file)) fun _ => keeps_pure hR _

theorem readRadio_keeps (domain : RadioDomain) (name : String) :
    Keeps R (readRadio domain name) := by
  refine keeps_bind hR (readTextFile_keeps hR h 32 _) fun type => ?_
  split
  · exact keeps_pure hR _
  · refine keeps_bind hR (readI64File_keeps hR h 0 1 _) fun hard => ?_
    cases hard with
    | none => exact keeps_pure hR _
    | some hard =>
      refine keeps_bind hR (readI64File_keeps hR h 0 1 _) fun soft => ?_
      cases soft with
      | none => exact keeps_pure hR _
      | some soft =>
        dsimp only
        split
        · exact keeps_pure hR _
        · exact keeps_bind hR (keeps_call hR (h.writable _)) fun _ => keeps_pure hR _

theorem radioPower_keeps (domain : RadioDomain) : Keeps R (radioPower domain) := by
  have hlist : Keeps R (listEntries .rfkill "rfkill") :=
    keeps_bind hR (keeps_call hR (h.list .rfkill)) fun _ => keeps_pure hR _
  refine keeps_bind hR hlist fun names => ?_
  induction names with
  | nil => exact keeps_pure hR _
  | cons name names ih =>
    refine keeps_bind hR (readRadio_keeps hR h domain name) fun radio => ?_
    cases radio with
    | some radio => exact keeps_pure hR _
    | none => exact ih

theorem writeI64Verified_keeps {file : SysFile} {requested : Int}
    (hwrite : P (.write file requested)) : Keeps R (writeI64Verified file requested) := by
  refine keeps_bind hR (keeps_call hR hwrite) fun written => ?_
  cases written with
  | false => exact keeps_pure hR _
  | true => exact keeps_bind hR (readI64File_keeps hR h _ _ _) fun _ => keeps_pure hR _

/-- An rfkill write, for a relation that allows it. -/
theorem setRadioPower_keeps (hwrite : ∀ file value, P (.write file value)) (domain : RadioDomain)
    (powered : Bool) : Keeps R (setRadioPower domain powered) := by
  refine keeps_bind hR (radioPower_keeps hR h domain) fun state => ?_
  cases state with
  | none => exact keeps_pure hR _
  | some state =>
    dsimp only
    split
    · exact keeps_pure hR _
    · exact writeI64Verified_keeps hR h (hwrite _ _)

/-! ## Power requests -/

omit h in
theorem indexMissing_keeps : Keeps R operations.indexMissing := .get_bind fun _ => keeps_pure hR _

theorem awaitPowered_keeps (interface : String) (attempts : Nat) :
    Keeps R (awaitPowered operations interface attempts) := by
  induction attempts with
  | zero => exact keeps_pure hR _
  | succ attempts ih =>
    refine keeps_bind hR (bluetoothInfo_keeps hR fun _ => h.probe) fun r => ?_
    cases r with
    | some info => exact keeps_pure hR _
    | none => exact keeps_bind hR (keeps_call hR (h.wait 50)) fun _ => ih

theorem awaitReprobe_keeps (interface : String) (attempts : Nat) :
    Keeps R (awaitReprobe operations interface attempts) := by
  induction attempts with
  | zero => exact keeps_pure hR _
  | succ attempts ih =>
    refine keeps_bind hR (bluetoothInfo_keeps hR fun _ => h.probe) fun r => ?_
    cases r with
    | some info =>
      dsimp only
      split
      · exact keeps_pure hR _
      · refine keeps_bind hR (setBluetoothPower_keeps hR h interface true) fun written => ?_
        cases written with
        | false => exact keeps_pure hR _
        | true => exact keeps_bind hR (keeps_call hR (h.wait 100)) fun _ => ih
    | none =>
      refine keeps_bind hR (indexMissing_keeps hR) fun missing => ?_
      cases missing with
      | false => exact keeps_pure hR _
      | true => exact keeps_bind hR (keeps_call hR (h.wait 100)) fun _ => ih

theorem awaitRegistered_keeps (interface : String) (index attempts : Nat) :
    Keeps R (awaitRegistered interface index attempts) := by
  induction attempts with
  | zero => exact keeps_bind hR (keeps_error hR _ _) fun _ => keeps_pure hR _
  | succ attempts ih =>
    refine keeps_bind hR (bluetoothInfo_keeps hR fun _ => h.probe) fun r => ?_
    cases r with
    | some info =>
      dsimp only
      split
      · exact keeps_pure hR _
      · exact setBluetoothPower_keeps hR h interface true
    | none => exact keeps_bind hR (keeps_call hR (h.wait 50)) fun _ => ih

private theorem rfkillRecovery_keeps
    (hset : ∀ unblocked, Keeps R (setRadioPower .bluetooth unblocked))
    (interface : String) : Keeps R (rfkillRecovery operations interface) := by
  refine keeps_bind hR (radioPower_keeps hR h .bluetooth) fun radio => ?_
  cases radio with
  | none => exact keeps_pure hR _
  | some radio =>
    dsimp only
    split
    · exact keeps_pure hR _
    · have hedge : Keeps R (blockEdge operations radio) := by
        rw [blockEdge]
        split
        · refine keeps_bind hR (hset false) fun written => ?_
          cases written with
          | false => exact keeps_pure hR _
          | true => exact keeps_bind hR (keeps_call hR (h.wait 100)) fun _ => keeps_pure hR _
        · exact keeps_pure hR _
      refine keeps_bind hR hedge fun blocked => ?_
      cases blocked with
      | false => exact keeps_pure hR _
      | true =>
        refine keeps_bind hR (hset true) fun written => ?_
        cases written with
        | false => exact keeps_pure hR _
        | true => exact awaitReprobe_keeps hR h interface 50

/-- rfkill is written for power on only. -/
theorem requestBluetoothPowerWith_keeps {powered : Bool}
    (hset : powered = true → ∀ unblocked, Keeps R (setRadioPower .bluetooth unblocked))
    (interface : String) : Keeps R (requestBluetoothPowerWith operations interface powered) := by
  refine keeps_bind hR (bluetoothInfo_keeps hR fun _ => h.probe) fun r => ?_
  cases r with
  | some info =>
    dsimp only
    split
    · exact keeps_pure hR _
    · refine keeps_bind hR (setBluetoothPower_keeps hR h interface powered) fun written => ?_
      cases written with
      | false => exact keeps_pure hR _
      | true =>
        dsimp only
        split
        · exact awaitPowered_keeps hR h interface 10
        · refine keeps_bind hR (bluetoothInfo_keeps hR fun _ => h.probe) fun r => ?_
          cases r with
          | some info => exact keeps_pure hR _
          | none => exact indexMissing_keeps hR
  | none =>
    refine keeps_bind hR (indexMissing_keeps hR) fun missing => ?_
    cases missing with
    | false => exact keeps_pure hR _
    | true =>
      cases powered with
      | false => exact keeps_pure hR _
      | true => exact rfkillRecovery_keeps hR h (hset rfl) interface

private theorem usbFallback_keeps (hup : ∀ index, P (.hciDevUp index)) (interface : String) :
    Keeps R (usbFallback interface) := by
  refine .get_bind fun g => ?_
  cases bluetoothIndex interface with
  | none => exact keeps_pure hR _
  | some index =>
    dsimp only
    split
    · exact keeps_pure hR _
    · refine keeps_bind hR (keeps_call hR (h.realpath interface)) fun resolved => ?_
      cases resolved with
      | none => exact keeps_pure hR _
      | some resolved =>
        dsimp only
        split
        · exact keeps_pure hR _
        · refine keeps_bind hR (keeps_call hR (h.probe (.socket : ProbeOp 0 _))) fun opened => ?_
          cases opened with
          | some code => exact keeps_bind hR (keeps_error hR _ _) fun _ => keeps_pure hR _
          | none =>
            refine keeps_bind hR (keeps_call hR (hup index)) fun up => ?_
            cases up.filter (· ≠ ealready) with
            | some code => exact keeps_bind hR (keeps_error hR _ _) fun _ => keeps_pure hR _
            | none => exact awaitRegistered_keeps hR h interface index 20

theorem requestBluetoothPower_keeps {powered : Bool} (hup : ∀ index, P (.hciDevUp index))
    (hset : powered = true → ∀ unblocked, Keeps R (setRadioPower .bluetooth unblocked))
    (interface : String) : Keeps R (requestBluetoothPower interface powered) := by
  refine keeps_bind hR (requestBluetoothPowerWith_keeps hR h hset interface) fun done => ?_
  cases done with
  | true => exact keeps_pure hR _
  | false =>
    dsimp only
    split
    · exact keeps_pure hR _
    · exact usbFallback_keeps hR h hup interface

/-! ## Requests -/

theorem scanBluetooth_keeps : Keeps R scanBluetooth := by
  have hlist : Keeps R (listEntries .bluetooth "hci") :=
    keeps_bind hR (keeps_call hR (h.list .bluetooth)) fun _ => keeps_pure hR _
  refine keeps_bind hR hlist fun names => ?_
  refine keeps_bind hR (radioPower_keeps hR h .bluetooth) fun power => ?_
  induction names with
  | nil => exact keeps_pure hR _
  | cons name names ih =>
    refine keeps_bind hR (bluetoothInfo_keeps hR fun _ => h.probe) fun info => ?_
    exact keeps_bind hR ih fun _ => keeps_pure hR _

theorem scanDevices_keeps : Keeps R scanDevices := by
  refine keeps_bind hR (keeps_call hR h.slots) fun slots => ?_
  exact keeps_bind hR (scanBluetooth_keeps hR h) fun devices => keeps_pure hR _

theorem appendState_keeps (device : NativeDevice) : Keeps R (appendState device) := by
  refine keeps_bind hR (bluetoothInfo_keeps hR fun _ => h.probe) fun info => ?_
  cases info with
  | some info => exact .get_bind fun g => keeps_pure hR _
  | none =>
    refine keeps_bind hR (readTextFile_keeps hR h 129 _) fun address => ?_
    exact keeps_bind hR (radioPower_keeps hR h .bluetooth) fun radio =>
      .get_bind fun g => keeps_pure hR _

theorem buildGetState_keeps (name : String) : Keeps R (buildGetState name) := by
  refine keeps_bind hR (scanDevices_keeps hR h) fun devices => ?_
  cases findDevice devices name with
  | none => exact keeps_pure hR _
  | some device => exact keeps_bind hR (appendState_keeps hR h device) fun _ => keeps_pure hR _

theorem buildSetState_keeps (hcount : ∀ g : Globals, R g [] { g with revision := g.revision + 1 })
    {change : NativeDevice → NativeM (Option Refusal)} (hchange : ∀ device, Keeps R (change device))
    (name : String) :
    Keeps R (buildSetState name change) := by
  refine keeps_bind hR (scanDevices_keeps hR h) fun devices => ?_
  cases findDevice devices name with
  | none => exact keeps_pure hR _
  | some device =>
    dsimp only
    split
    · exact keeps_pure hR _
    · refine keeps_bind hR (hchange device) fun refusal => ?_
      cases refusal with
      | some refusal => exact keeps_pure hR _
      | none =>
        refine keeps_bind hR (.modify hcount) fun _ => ?_
        refine keeps_bind hR (scanDevices_keeps hR h) fun devices => ?_
        cases findDevice devices name with
        | none => exact keeps_pure hR _
        | some device =>
          exact keeps_bind hR (appendState_keeps hR h device) fun _ => keeps_pure hR _

omit h in
theorem changePowered_keeps {device : NativeDevice} {powered : Bool}
    (hrequest : Keeps R (requestBluetoothPower device.name powered)) :
    Keeps R (changePowered device powered) := by
  rw [changePowered]
  split
  · exact keeps_pure hR _
  · refine keeps_bind hR hrequest fun done => ?_
    cases done with
    | true => exact keeps_pure hR _
    | false => exact keeps_pure hR _

omit h in
theorem bluetoothAction_keeps {device : NativeDevice}
    (hscan : Keeps R (scanBluetoothDevices device.name)) : Keeps R (bluetoothAction device) := by
  rw [bluetoothAction]
  split
  · exact keeps_pure hR _
  · refine keeps_bind hR hscan fun done => ?_
    cases done with
    | true => exact keeps_pure hR _
    | false => exact keeps_pure hR _

end Client

/-! ## The operations that are issued -/

/-- Every operation of the log satisfies `P`. -/
def Issued (P : NativeOp → Prop) (_ : Globals) (log : Log nativeSig) (_ : Globals) : Prop :=
  ∀ x ∈ log, P x.1

private theorem Issued.composes (P : NativeOp → Prop) : Composes (Issued P) where
  nil _ := fun _ hx => nomatch hx
  append h h' := fun x hx => (List.mem_append.mp hx).elim (h x) (h' x)

private theorem Issued.single {P : NativeOp → Prop} {o : NativeOp} (h : P o) (g g' : Globals)
    (r : o.Ret) : Issued P g [⟨o, r⟩] g' := fun x hx => by rwa [List.mem_singleton.mp hx]

/-- What holds of every operation that is issued is kept by the client. -/
theorem Issued.respects (P : NativeOp → Prop) : Respects P (Issued P) where
  composes := Issued.composes P
  call h g r := .single h g g r
  quiet _ _ _ hx := nomatch hx
  receive {timeout opcode index capacity} h := by
    have hpure (result : EventResult) : Keeps (Issued P) (pure result : NativeM EventResult) :=
      .pure (Issued.composes P) result
    have hstored (f : Globals → Globals) (result : EventResult) :
        Keeps (Issued P) (modify f >>= fun _ => (pure result : NativeM EventResult)) :=
      .bind (Issued.composes P) (.modify fun _ _ hx => nomatch hx) fun _ => hpure result
    refine .bind (Issued.composes P) (.ask fun g r => .single h g g r) fun answer => ?_
    cases answer with
    | idle code => exact hstored _ _
    | failed code => exact hstored _ _
    | packet data =>
      dsimp only
      split
      · exact hstored _ _
      · exact hstored _ _
      · exact hpure _
      · exact hpure _
      · exact hpure _

end MsysHal.Native

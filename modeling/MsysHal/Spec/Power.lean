import MsysHal.Spec.Client

/-!
# Bluetooth power is read back

A power request that succeeds ends in an observation: the last `bluetooth_info`
call, made after the last write, reports the power that was asked for or, for
power off, an empty index list. One path has no such call. After HCIDEVUP the USB
path answers with the success of Set Powered itself, when the controller has
registered without being powered. And a request for power off takes the text of
an earlier call for an empty index list.

## Key results

- `setBluetoothPower_sent`: the write of a successful Set Powered and what follows it
- `awaitPowered_read`, `awaitReprobe_read`, `awaitRegistered_read`: how the retry loops end
- `power_read_back`: which successful requests end in an observation
-/

namespace MsysHal.Native

open Interleave (Log Does Keeps does_pure does_bind does_get_bind)

/-! ## Operations -/

/-- The writes that change power: Set Powered, an rfkill attribute and HCIDEVUP. -/
def isPowerWrite : NativeOp → Bool
  | .send opcode _ _ => opcode == mgmtOpSetPowered
  | .write _ _ => true
  | .hciDevUp _ => true
  | _ => false

theorem ProbeOp.not_powerWrite {preferred : Nat} {o : NativeOp} (h : ProbeOp preferred o) :
    isPowerWrite o = false := by
  cases h <;> rfl

/-- A call writes nothing. -/
theorem bluetoothInfo_writes_nothing {interface : String} {g g' : Globals} {log : Log nativeSig}
    {r : Option BluetoothInfo} (h : Does (bluetoothInfo interface) g log r g') :
    ∀ x ∈ log, isPowerWrite x.1 = false :=
  bluetoothInfo_keeps (Issued.respects fun o => isPowerWrite o = false)
    (fun _ => ProbeOp.not_powerWrite) g log r g' h

/-- A call that sees any answer starts with a socket. -/
theorem bluetoothInfo_starts {interface : String} {g g' : Globals} {log : Log nativeSig}
    {r : Option BluetoothInfo} (h : Does (bluetoothInfo interface) g log r g') (hlog : log ≠ []) :
    ∃ x ∈ log, x.1 = .socket := by
  cases hindex : bluetoothIndex interface with
  | none => exact absurd (bluetoothInfo_invalid hindex h).1 hlog
  | some preferred =>
    rw [bluetoothInfo, hindex] at h
    obtain ⟨opened, g₁, log₁, log₂, rfl, hsocket, -⟩ := does_bind.mp h
    obtain ⟨code, log', rfl, -⟩ := does_call_bind.mp hsocket
    exact ⟨⟨.socket, code⟩, List.mem_append_left _ List.mem_cons_self, rfl⟩

/-! ## Controller information -/

/-- The power that an answer reports, where it is a reply to Read Info. -/
def reportsPower : Answer → Option Bool
  | ⟨.receive _ opcode index capacity, .packet data⟩ =>
    match classify opcode index capacity data with
    | .reply response =>
      if opcode = mgmtOpReadInfo ∧ 20 ≤ response.length then
        some (readInfoReply index response).powered
      else none
    | _ => none
  | _ => none

/-- An answer that reports power is controller information. -/
theorem recorded_of_reportsPower {preferred : Nat} {x : Answer} {b : Bool}
    (h : reportsPower x = some b) : recorded preferred x = some .none := by
  obtain ⟨o, r⟩ := x
  cases o with
  | receive timeout opcode index capacity =>
    cases r with
    | idle code => cases h
    | failed code => cases h
    | packet data =>
      rw [reportsPower] at h
      rw [recorded]
      cases hclass : classify opcode index capacity data with
      | reply response =>
        rw [hclass] at h
        dsimp only at h
        split at h
        · next hread =>
          have hne : opcode ≠ mgmtOpReadIndexList := by
            rw [hread.1]
            decide
          rw [recordedDatagram, if_neg hne, if_pos hread]
        · cases h
      | _ => rw [hclass] at h; cases h
  | _ => cases h

/-- A call that fails reports no power. -/
theorem bluetoothInfo_none_reports {interface : String} {g g' : Globals} {log : Log nativeSig}
    (h : Does (bluetoothInfo interface) g log none g') : ∀ x ∈ log, reportsPower x = none := by
  intro x hx
  cases hindex : bluetoothIndex interface with
  | none =>
    rw [(bluetoothInfo_invalid hindex h).1] at hx
    exact nomatch hx
  | some preferred =>
    obtain ⟨hunread, -⟩ := bluetoothInfo_spec hindex h
    cases hreport : reportsPower x with
    | none => rfl
    | some b => exact absurd (recorded_of_reportsPower hreport) (hunread x hx)

/-- A call that succeeds reports the power it returns with its last answer, and none before. -/
theorem bluetoothInfo_some_reports {interface : String} {g g' : Globals} {log : Log nativeSig}
    {info : BluetoothInfo} (h : Does (bluetoothInfo interface) g log (some info) g') :
    g'.error = .none ∧ ∃ before x, log = before ++ [x] ∧ reportsPower x = some info.powered ∧
      ∀ y ∈ before, reportsPower y = none := by
  cases hindex : bluetoothIndex interface with
  | none => exact nomatch (bluetoothInfo_invalid hindex h).2.1
  | some preferred =>
    obtain ⟨herror, before, d, response, hlog, hclass, hlong, hinfo, hunread⟩ :=
      bluetoothInfo_spec hindex h
    refine ⟨herror, before, _, hlog, ?_, fun y hy => ?_⟩
    · rw [reportsPower, hclass, hinfo]
      exact if_pos ⟨rfl, hlong⟩
    · cases hreport : reportsPower y with
      | none => rfl
      | some b => exact absurd (recorded_of_reportsPower hreport) (hunread y hy)

/-! ## Set Powered -/

private theorem bluetoothSocket_true {g g' : Globals} {log : Log nativeSig}
    (h : Does bluetoothSocket g log true g') : log = [⟨.socket, none⟩, ⟨.bind, none⟩] ∧ g' = g := by
  obtain ⟨opened, log', rfl, hbind⟩ := does_call_bind.mp h
  cases opened with
  | some code => exact nomatch (does_error.mp hbind).2.1
  | none =>
    obtain ⟨bound, log'', rfl, hend⟩ := does_call_bind.mp hbind
    cases bound with
    | some code => exact nomatch (does_error.mp hend).2.1
    | none =>
      obtain ⟨rfl, -, rfl⟩ := does_pure.mp hend
      exact ⟨rfl, rfl⟩

/-- Set Powered stores no text of an empty index list. -/
private theorem Unread.not_empty {index preferred : Nat} {g g' : Globals} {log : Log nativeSig}
    (h : Unread preferred g log g') (hops : ∀ x ∈ log, SetPoweredOp index x.1)
    (hg : g.error.isIndexListEmpty = false) : g'.error.isIndexListEmpty = false := by
  rw [Bool.eq_false_iff, ne_eq, isIndexListEmpty_iff] at hg ⊢
  intro hempty
  rw [h.error] at hempty
  rcases errorAfter_cases preferred g.error log with ⟨heq, -⟩ | ⟨x, hx, hrec⟩
  · exact hg (heq ▸ hempty)
  · rw [hempty, recorded_eq_indexList_iff] at hrec
    have hop := hops x hx
    obtain ⟨o, r⟩ := x
    cases hop with
    | send payload => cases hrec
    | receive =>
      cases r with
      | idle code => cases hrec
      | failed code => cases hrec
      | packet data =>
        rw [deliversEmptyList] at hrec
        split at hrec <;> cases hrec

/-- A Set Powered that succeeds was sent, and after it only its reply was waited for. -/
theorem setBluetoothPower_sent {interface : String} {powered : Bool} {g g' : Globals}
    {log : Log nativeSig} (h : Does (setBluetoothPower interface powered) g log true g') :
    g'.error.isIndexListEmpty = false ∧ ∃ before index payload after,
      log = before ++ ⟨.send mgmtOpSetPowered index payload, none⟩ :: after ∧
      ∀ x ∈ after, x.1 = .receive 250 mgmtOpSetPowered index none := by
  obtain ⟨r, g₁, log₁, log₂, rfl, hinfo, hset⟩ := does_bind.mp h
  cases r with
  | none => cases (does_pure.mp hset).2.1
  | some info =>
    obtain ⟨opened, g₂, log₃, log₄, rfl, hsocket, hopened⟩ := does_bind.mp hset
    cases opened with
    | false => cases (does_pure.mp hopened).2.1
    -- Both calls of the socket succeeded, so Set Powered is sent.
    | true =>
      obtain ⟨rfl, rfl⟩ := bluetoothSocket_true hsocket
      obtain ⟨reply, g₃, log₅, log₆, rfl, hcommand, hend⟩ := does_bind.mp hopened
      obtain ⟨rfl, hreply, rfl⟩ := does_pure.mp hend
      cases reply with
      | none => cases hreply
      | some data =>
        have hops :=
          mgmtCommand_keeps (Issued.respects (SetPoweredOp info.index)) (.send _) .receive
          _ _ _ _ hcommand
        obtain ⟨before, d, hlog, -, hunread⟩ := mgmtCommand_spec info.index hcommand
        -- The probe before it left no trace of an empty list.
        have herror : g₂.error.isIndexListEmpty = false := by
          rw [(bluetoothInfo_some_reports hinfo).1]
          decide
        refine ⟨hunread.not_empty (fun x hx => hops x ?_) herror, ?_⟩
        · rw [hlog]
          exact List.mem_append_left _ hx
        -- Set Powered is the last command; what follows waits for its answer.
        rw [mgmtCommand, if_neg (by simp)] at hcommand
        obtain ⟨sent, log', rfl, hawait⟩ := does_call_bind.mp hcommand
        cases sent with
        | some code => cases (does_error.mp hawait).2.1
        | none =>
          refine ⟨log₁ ++ [⟨.socket, none⟩, ⟨.bind, none⟩], info.index, [if powered then 1 else 0],
            log', ?_, ?_⟩
          · simp only [List.append_nil, List.append_assoc, List.cons_append, List.nil_append]
          · exact awaitReply_keeps (Issued.respects
              fun o => o = .receive 250 mgmtOpSetPowered info.index none) rfl 12 _ _ _ _ hawait

/-! ## Observations -/

/-- The last call of the log, made after the last write, found the power that was asked for
    or, for power off, an empty index list. -/
def ReadBack (interface : String) (powered : Bool) (log : Log nativeSig) : Prop :=
  ∃ pre call post g r g', log = pre ++ (call ++ post) ∧ Does (bluetoothInfo interface) g call r g' ∧
    (∀ x ∈ call ++ post, isPowerWrite x.1 = false) ∧ (∀ x ∈ post, x.1 ≠ .socket) ∧
    ((∃ info, r = some info ∧ info.powered = powered) ∨
      powered = false ∧ r = none ∧ ∃ x ∈ call, deliversEmptyList x = true)

theorem ReadBack.prepend {interface : String} {powered : Bool} {log : Log nativeSig}
    (h : ReadBack interface powered log) (log' : Log nativeSig) :
    ReadBack interface powered (log' ++ log) := by
  obtain ⟨pre, call, post, g, r, g', rfl, hrest⟩ := h
  exact ⟨log' ++ pre, call, post, g, r, g', by rw [List.append_assoc], hrest⟩

/-- A call that ends the log. -/
theorem ReadBack.of_call {interface : String} {powered : Bool} {log : Log nativeSig}
    {g g' : Globals} {r : Option BluetoothInfo} (h : Does (bluetoothInfo interface) g log r g')
    (hr : (∃ info, r = some info ∧ info.powered = powered) ∨
      powered = false ∧ r = none ∧ ∃ x ∈ log, deliversEmptyList x = true) :
    ReadBack interface powered log := by
  refine ⟨[], log, [], g, r, g', by rw [List.append_nil]; rfl, h, ?_, fun x hx => (nomatch hx), hr⟩
  rw [List.append_nil]
  exact bluetoothInfo_writes_nothing h

/-- An observation was stored or is controller information. -/
theorem ReadBack.not_mute {interface : String} {powered : Bool} {log : Log nativeSig}
    (h : ReadBack interface powered log) : ¬ Mute interface log := by
  intro hmute
  obtain ⟨pre, call, post, g, r, g', rfl, hcall, -, -, hr⟩ := h
  have hmem {x : Answer} (hx : x ∈ call) : x ∈ pre ++ (call ++ post) :=
    List.mem_append_right _ (List.mem_append_left _ hx)
  cases hindex : bluetoothIndex interface with
  | none =>
    obtain ⟨rfl, rfl, -⟩ := bluetoothInfo_invalid hindex hcall
    rcases hr with ⟨info, hinfo, -⟩ | ⟨-, -, x, hx, -⟩
    · exact nomatch hinfo
    · exact nomatch hx
  | some preferred =>
    rcases hr with ⟨info, rfl, -⟩ | ⟨-, -, x, hx, hempty⟩
    · obtain ⟨-, before, x, rfl, hreport, -⟩ := bluetoothInfo_some_reports hcall
      have hnone :=
        hmute preferred hindex x (hmem (List.mem_append_right _ (List.mem_singleton_self x)))
      rw [recorded_of_reportsPower hreport] at hnone
      exact nomatch hnone
    · have hnone := hmute preferred hindex x (hmem hx)
      rw [recorded_eq_indexList_iff.mpr hempty] at hnone
      exact nomatch hnone

/-- After Set Powered at the end of the log there is no observation. -/
theorem not_readBack_of_sent {interface : String} {powered : Bool} {before after : Log nativeSig}
    {index : Nat} {payload : Bytes} {sent : Option Int}
    (hafter : ∀ x ∈ after, x.1 = .receive 250 mgmtOpSetPowered index none) :
    ¬ ReadBack interface powered
      (before ++ ⟨.send mgmtOpSetPowered index payload, sent⟩ :: after) := by
  rintro ⟨pre, call, post, g, r, g', hlog, hcall, hquiet, -, hr⟩
  -- the write lies before the call, so the call is made of waits for the reply
  have hsuffix : ∃ c, after = c ++ (call ++ post) := by
    rcases List.append_eq_append_iff.mp hlog with ⟨c, -, hc⟩ | ⟨c, -, hc⟩
    · cases c with
      | nil =>
        have hw := hquiet _ (hc ▸ List.mem_cons_self)
        exact nomatch hw
      | cons x c =>
        rw [List.cons_append, List.cons.injEq] at hc
        exact ⟨c, hc.2⟩
    · have hw := hquiet ⟨.send mgmtOpSetPowered index payload, sent⟩
        (hc ▸ List.mem_append_right _ List.mem_cons_self)
      exact nomatch hw
  obtain ⟨c, rfl⟩ := hsuffix
  have hcall_nil : call = [] := by
    by_contra hne
    obtain ⟨x, hx, hsocket⟩ := bluetoothInfo_starts hcall hne
    rw [hafter x (List.mem_append_right _ (List.mem_append_left _ hx))] at hsocket
    exact nomatch hsocket
  subst hcall_nil
  rcases hr with ⟨info, rfl, -⟩ | ⟨-, -, x, hx, -⟩
  · obtain ⟨-, b, x, hnil, -⟩ := bluetoothInfo_some_reports hcall
    exact List.append_ne_nil_of_right_ne_nil b (List.cons_ne_nil x []) hnil.symm
  · exact nomatch hx

/-! ## The retry loops -/

theorem does_indexMissing {g g' : Globals} {log : Log nativeSig} {missing : Bool} :
    Does operations.indexMissing g log missing g' ↔
      log = [] ∧ missing = g.error.isIndexListEmpty ∧ g' = g := does_pure

theorem does_indexMissing_bind {α : Type} {f : Bool → NativeM α} {g g' : Globals}
    {log : Log nativeSig} {a : α} : Does (operations.indexMissing >>= f) g log a g' ↔
      Does (f g.error.isIndexListEmpty) g log a g' := Iff.rfl

/-- The probes after Set Powered end in one that finds the controller powered. -/
theorem awaitPowered_read {interface : String} {attempts : Nat} {g g' : Globals}
    {log : Log nativeSig} (h : Does (awaitPowered operations interface attempts) g log true g') :
    ReadBack interface true log := by
  induction attempts generalizing g log with
  | zero => exact nomatch (does_pure.mp h).2.1
  | succ attempts ih =>
    rw [awaitPowered] at h
    obtain ⟨r, g₁, log₁, log₂, rfl, hinfo, hrest⟩ := does_bind.mp h
    cases r with
    | some info =>
      obtain ⟨rfl, hpowered, rfl⟩ := does_pure.mp hrest
      rw [List.append_nil]
      exact .of_call hinfo (.inl ⟨info, rfl, hpowered.symm⟩)
    | none =>
      obtain ⟨_, log₃, rfl, hagain⟩ := does_call_bind.mp hrest
      exact ((ih hagain).prepend [_]).prepend log₁

/-- The probes after an rfkill edge end in one that finds the controller powered. -/
theorem awaitReprobe_read {interface : String} {attempts : Nat} {g g' : Globals}
    {log : Log nativeSig} (h : Does (awaitReprobe operations interface attempts) g log true g') :
    ReadBack interface true log := by
  induction attempts generalizing g log with
  | zero => exact nomatch (does_pure.mp h).2.1
  | succ attempts ih =>
    rw [awaitReprobe] at h
    obtain ⟨r, g₁, log₁, log₂, rfl, hinfo, hrest⟩ := does_bind.mp h
    cases r with
    | some info =>
      dsimp only at hrest
      split at hrest
      · next hpowered =>
        obtain ⟨rfl, -, rfl⟩ := does_pure.mp hrest
        rw [List.append_nil]
        exact .of_call hinfo (.inl ⟨info, rfl, hpowered⟩)
      · obtain ⟨written, g₂, log₃, log₄, rfl, hset, hwritten⟩ := does_bind.mp hrest
        cases written with
        | false => exact nomatch (does_pure.mp hwritten).2.1
        | true =>
          obtain ⟨_, log₅, rfl, hagain⟩ := does_call_bind.mp hwritten
          exact (((ih hagain).prepend [_]).prepend log₃).prepend log₁
    | none =>
      replace hrest := does_indexMissing_bind.mp hrest
      cases hmissing : g₁.error.isIndexListEmpty with
      | false =>
        rw [hmissing] at hrest
        exact nomatch (does_pure.mp hrest).2.1
      | true =>
        rw [hmissing] at hrest
        obtain ⟨_, log₃, rfl, hagain⟩ := does_call_bind.mp hrest
        exact ((ih hagain).prepend [_]).prepend log₁

/-- The probes after HCIDEVUP end in one that finds the controller powered, or in Set
    Powered after one that does not. -/
theorem awaitRegistered_read {interface : String} {index attempts : Nat} {g g' : Globals}
    {log : Log nativeSig} (h : Does (awaitRegistered interface index attempts) g log true g') :
    (ReadBack interface true log ∧ ∀ x ∈ log, reportsPower x ≠ some false) ∨
    (∃ x ∈ log, reportsPower x = some false) ∧ ∃ before index payload after,
      log = before ++ ⟨.send mgmtOpSetPowered index payload, none⟩ :: after ∧
      ∀ x ∈ after, x.1 = .receive 250 mgmtOpSetPowered index none := by
  -- Induction on the attempts that are left.
  induction attempts generalizing g log with
  | zero => exact nomatch (does_error.mp h).2.1
  | succ attempts ih =>
    rw [awaitRegistered] at h
    obtain ⟨r, g₁, log₁, log₂, rfl, hinfo, hrest⟩ := does_bind.mp h
    cases r with
    | some info =>
      obtain ⟨-, before, x, hlog₁, hreport, hbefore⟩ := bluetoothInfo_some_reports hinfo
      dsimp only at hrest
      split at hrest
      · next hpowered =>
        -- The controller is found powered.
        obtain ⟨rfl, -, rfl⟩ := does_pure.mp hrest
        rw [List.append_nil]
        refine .inl ⟨.of_call hinfo (.inl ⟨info, rfl, hpowered⟩), fun y hy => ?_⟩
        rw [hlog₁] at hy
        rcases List.mem_append.mp hy with hy | hy
        · rw [hbefore y hy]
          exact nofun
        · rw [List.mem_singleton.mp hy, hreport, hpowered]
          exact nofun
      · next hpowered =>
        -- It is found without power, and Set Powered is the last command.
        obtain ⟨-, before', index', payload, after, rfl, hafter⟩ := setBluetoothPower_sent hrest
        refine .inr ⟨⟨x, ?_, ?_⟩, log₁ ++ before', index', payload, after, ?_, hafter⟩
        · rw [hlog₁]
          exact List.mem_append_left _ (List.mem_append_right _ (List.mem_singleton_self x))
        · rw [hreport, Bool.eq_false_iff.mpr hpowered]
        · rw [List.append_assoc]
    | none =>
      -- The probe failed, so nothing was reported of the power: wait and try again.
      obtain ⟨_, log₃, rfl, hagain⟩ := does_call_bind.mp hrest
      have hquiet := bluetoothInfo_none_reports hinfo
      rcases ih hagain with ⟨hread, hreports⟩ | ⟨⟨x, hx, hreport⟩, before, index', payload,
        after, rfl, hafter⟩
      · refine .inl ⟨(hread.prepend [_]).prepend log₁, fun x hx => ?_⟩
        rcases List.mem_append.mp hx with hx | hx
        · rw [hquiet x hx]
          exact nofun
        · rcases List.mem_cons.mp hx with rfl | hx
          · exact nofun
          · exact hreports x hx
      · refine .inr ⟨⟨x, List.mem_append_right _ (List.mem_cons_of_mem _ hx), hreport⟩,
          log₁ ++ ⟨.wait 50, ()⟩ :: before, index', payload, after, ?_, hafter⟩
        rw [List.append_assoc]
        rfl

/-- Everything but HCIDEVUP. -/
def NotUp (o : NativeOp) : Prop := ∀ index, o ≠ .hciDevUp index

private theorem allows_notUp : Allows NotUp where
  probe h := by cases h <;> exact nofun
  set h := by cases h <;> exact nofun
  wait _ := nofun
  list _ := nofun
  read _ := nofun
  writable _ := nofun
  realpath _ := nofun
  slots := nofun

private theorem requestBluetoothPowerWith_notUp (interface : String) (powered : Bool) :
    Keeps (Issued NotUp) (requestBluetoothPowerWith operations interface powered) :=
  requestBluetoothPowerWith_keeps (Issued.respects NotUp) allows_notUp
    (fun _ => setRadioPower_keeps (Issued.respects NotUp) allows_notUp
      (fun _ _ => nofun) .bluetooth)
    interface

/-! ## Requests -/

/-- How `request_bluetooth_power_with` succeeds: with an observation, or with a call that
    fails for an empty index list when power off was asked for. -/
theorem requestBluetoothPowerWith_true {interface : String} {powered : Bool} {g g' : Globals}
    {log : Log nativeSig}
    (h : Does (requestBluetoothPowerWith operations interface powered) g log true g') :
    ReadBack interface powered log ∨
    powered = false ∧ Does (bluetoothInfo interface) g log none g' ∧
      g'.error.isIndexListEmpty = true := by
  obtain ⟨r, g₁, log₁, log₂, rfl, hinfo, hrest⟩ := does_bind.mp h
  cases r with
  | some info =>
    dsimp only at hrest
    split at hrest
    · next hpowered =>
      -- The controller is in the state that was asked for already.
      obtain ⟨rfl, -, rfl⟩ := does_pure.mp hrest
      rw [List.append_nil]
      exact .inl (.of_call hinfo (.inl ⟨info, rfl, hpowered⟩))
    · obtain ⟨written, g₂, log₃, log₄, rfl, hset, hwritten⟩ := does_bind.mp hrest
      cases written with
      | false => exact nomatch (does_pure.mp hwritten).2.1
      | true =>
        cases powered with
        | true => exact .inl (((awaitPowered_read hwritten).prepend log₃).prepend log₁)
        | false =>
          rw [if_neg Bool.false_ne_true] at hwritten
          -- Power off is read back by one more call, which may fail for an empty list.
          obtain ⟨r', g₃, log₅, log₆, rfl, hprobe, hend⟩ := does_bind.mp hwritten
          cases r' with
          | some info' =>
            obtain ⟨rfl, hoff, rfl⟩ := does_pure.mp hend
            rw [List.append_nil]
            refine .inl
              (((ReadBack.of_call hprobe (.inl ⟨info', rfl, ?_⟩)).prepend log₃).prepend log₁)
            exact Bool.not_eq_true' _ ▸ hoff.symm
          | none =>
            obtain ⟨rfl, hmissing, rfl⟩ := does_indexMissing.mp hend
            -- Set Powered left another text, so this call was delivered the empty list
            have hfresh : ¬ InfoCall.Stale ⟨interface, g₂, log₅, none, g'⟩ := by
              rintro ⟨hbefore, -⟩
              rw [InfoCall.before, (setBluetoothPower_sent hset).1] at hbefore
              exact nomatch hbefore
            have hempty := truthful_of_not_stale (c := ⟨interface, g₂, log₅, none, g'⟩) hprobe
              hfresh rfl hmissing.symm
            rw [List.append_nil]
            exact .inl
              (((ReadBack.of_call hprobe (.inr ⟨rfl, rfl, hempty⟩)).prepend log₃).prepend log₁)
  | none =>
    -- The first call failed; unless the list was empty, nothing is tried.
    replace hrest := does_indexMissing_bind.mp hrest
    cases hmissing : g₁.error.isIndexListEmpty with
    | false =>
      rw [hmissing] at hrest
      exact nomatch (does_pure.mp hrest).2.1
    | true =>
      rw [hmissing] at hrest
      cases powered with
      | false =>
        obtain ⟨rfl, -, rfl⟩ := does_pure.mp hrest
        rw [List.append_nil]
        exact .inr ⟨rfl, hinfo, hmissing⟩
      | true =>
        -- An empty list and power on: the radio is unblocked and the controller awaited.
        obtain ⟨radio, g₂, log₃, log₄, rfl, -, hradio⟩ := does_bind.mp hrest
        cases radio with
        | none => exact nomatch (does_pure.mp hradio).2.1
        | some radio =>
          dsimp only at hradio
          split at hradio
          · exact nomatch (does_pure.mp hradio).2.1
          · obtain ⟨blocked, g₃, log₅, log₆, rfl, -, hblocked⟩ := does_bind.mp hradio
            cases blocked with
            | false => exact nomatch (does_pure.mp hblocked).2.1
            | true =>
              obtain ⟨written, g₄, log₇, log₈, rfl, -, hwritten⟩ := does_bind.mp hblocked
              cases written with
              | false => exact nomatch (does_pure.mp hwritten).2.1
              | true =>
                exact .inl (((((awaitReprobe_read hwritten).prepend log₇).prepend log₅).prepend
                  log₃).prepend log₁)

/-- The USB path succeeds after HCIDEVUP, with the probes that follow it. -/
theorem usbFallback_true {interface : String} {g g' : Globals} {log : Log nativeSig}
    (h : Does (usbFallback interface) g log true g') :
    ∃ before index up rest g₁, log = before ++ ⟨.hciDevUp index, up⟩ :: rest ∧
      (∀ x ∈ before, NotUp x.1) ∧ Does (awaitRegistered interface index 20) g₁ rest true g' := by
  replace h := does_get_bind.mp h
  cases hindex : bluetoothIndex interface with
  | none =>
    rw [hindex] at h
    -- Each check that fails answers false before the ioctl.
    exact nomatch (does_pure.mp h).2.1
  | some index =>
    rw [hindex] at h
    dsimp only at h
    split at h
    · exact nomatch (does_pure.mp h).2.1
    · obtain ⟨resolved, log₁, rfl, hpath⟩ := does_call_bind.mp h
      cases resolved with
      | none => exact nomatch (does_pure.mp hpath).2.1
      | some resolved =>
        dsimp only at hpath
        split at hpath
        · exact nomatch (does_pure.mp hpath).2.1
        · obtain ⟨opened, log₂, rfl, hopened⟩ := does_call_bind.mp hpath
          cases opened with
          | some code => exact nomatch (does_error.mp hopened).2.1
          | none =>
            -- The ioctl is issued; EALREADY counts as done.
            obtain ⟨up, log₃, rfl, hup⟩ := does_call_bind.mp hopened
            cases hcode : up.filter (· ≠ ealready) with
            | some code =>
              rw [hcode] at hup
              exact nomatch (does_error.mp hup).2.1
            | none =>
              rw [hcode] at hup
              refine ⟨[⟨.realpath interface, some resolved⟩, ⟨.socket, none⟩], index, up, log₃, g,
                rfl, ?_, hup⟩
              intro x hx
              rcases List.mem_cons.mp hx with rfl | hx
              · exact nofun
              · rw [List.mem_singleton.mp hx]
                exact nofun

/-- A reply to Read Info after HCIDEVUP reports a controller that is not powered. -/
def RegistersUnpowered (log : Log nativeSig) : Prop :=
  ∃ before index up rest, log = before ++ ⟨.hciDevUp index, up⟩ :: rest ∧
    ∃ x ∈ rest, reportsPower x = some false

private theorem not_registersUnpowered {log : Log nativeSig} (h : ∀ x ∈ log, NotUp x.1) :
    ¬ RegistersUnpowered log := by
  rintro ⟨before, index, up, rest, rfl, -⟩
  exact h ⟨.hciDevUp index, up⟩ (List.mem_append_right _ List.mem_cons_self) index rfl

/-- HCIDEVUP is issued once. -/
private theorem registersUnpowered_iff {before rest : Log nativeSig} {index : Nat} {up : Option Int}
    (hbefore : ∀ x ∈ before, NotUp x.1) (hrest : ∀ x ∈ rest, NotUp x.1) :
    RegistersUnpowered (before ++ ⟨.hciDevUp index, up⟩ :: rest) ↔
      ∃ x ∈ rest, reportsPower x = some false := by
  refine ⟨?_, fun hx => ⟨before, index, up, rest, rfl, hx⟩⟩
  rintro ⟨before', index', up', rest', hlog, hx⟩
  rcases List.append_eq_append_iff.mp hlog with ⟨c, -, hc⟩ | ⟨c, rfl, hc⟩
  · cases c with
    | nil =>
      rw [List.nil_append, List.cons.injEq] at hc
      exact hc.2 ▸ hx
    | cons y c =>
      rw [List.cons_append, List.cons.injEq] at hc
      refine absurd rfl (hrest ⟨.hciDevUp index', up'⟩ ?_ index')
      rw [hc.2]
      exact List.mem_append_right _ List.mem_cons_self
  · cases c with
    | nil =>
      rw [List.nil_append, List.cons.injEq] at hc
      exact hc.2 ▸ hx
    | cons y c =>
      rw [List.cons_append, List.cons.injEq] at hc
      refine absurd rfl (hbefore ⟨.hciDevUp index', up'⟩ ?_ index')
      rw [hc.1]
      exact List.mem_append_right _ List.mem_cons_self

/-- A power request that succeeds ends in an observation of the power that was asked for,
    exactly if it did not take the text of an earlier call for an empty index list and no
    controller registered without power after HCIDEVUP. -/
theorem power_read_back {interface : String} {powered : Bool} {g g' : Globals}
    {log : Log nativeSig} (h : Does (requestBluetoothPower interface powered) g log true g') :
    ReadBack interface powered log ↔
      ¬ (powered = false ∧ g.error.isIndexListEmpty = true ∧ Mute interface log) ∧
      ¬ RegistersUnpowered log := by
  obtain ⟨done, g₁, log₁, log₂, rfl, hwith, hrest⟩ := does_bind.mp h
  have hquiet := requestBluetoothPowerWith_notUp interface powered _ _ _ _ hwith
  cases done with
  -- The protocol answered true; it is stale only after a power off that read an empty list.
  | true =>
    obtain ⟨rfl, -, rfl⟩ := does_pure.mp hrest
    rw [List.append_nil]
    refine ⟨fun hread => ⟨fun hstale => hread.not_mute hstale.2.2, not_registersUnpowered hquiet⟩,
      fun hcond => ?_⟩
    rcases requestBluetoothPowerWith_true hwith with hread | ⟨rfl, hinfo, hmissing⟩
    · exact hread
    · have hfresh : ¬ InfoCall.Stale ⟨interface, g, log₁, none, g'⟩ :=
        fun hstale => hcond.1 ⟨rfl, hstale⟩
      exact .of_call hinfo (.inr ⟨rfl, rfl,
        truthful_of_not_stale (c := ⟨interface, g, log₁, none, g'⟩) hinfo hfresh rfl hmissing⟩)
  | false =>
    dsimp only at hrest
    -- The USB fallback is tried for power on only.
    split at hrest
    · exact nomatch (does_pure.mp hrest).2.1
    · next hpowered =>
      rw [Bool.not_eq_true, Bool.not_eq_false'] at hpowered
      subst hpowered
      obtain ⟨before, index, up, rest, g₂, rfl, hbefore, hloop⟩ := usbFallback_true hrest
      have hafter := awaitRegistered_keeps (Issued.respects NotUp) allows_notUp interface index 20
        _ _ _ _ hloop
      have hall : ∀ x ∈ log₁ ++ before, NotUp x.1 := fun x hx =>
        (List.mem_append.mp hx).elim (hquiet x) (hbefore x)
      rw [← List.append_assoc, registersUnpowered_iff hall hafter]
      -- The loop behind HCIDEVUP read the controller back, or it asked for its power itself.
      rcases awaitRegistered_read hloop with ⟨hread, hreports⟩ | ⟨hreport, pre, i, payload,
        post, rfl, hpost⟩
      · refine ⟨fun _ => ⟨fun hstale => (nomatch hstale.1), ?_⟩,
          fun _ => (hread.prepend [_]).prepend _⟩
        rintro ⟨x, hx, hreport⟩
        exact hreports x hx hreport
      · refine ⟨fun hread => absurd hread ?_, fun hcond => absurd hreport hcond.2⟩
        rw [← List.cons_append, ← List.append_assoc]
        exact not_readBack_of_sent hpost

namespace Sample

/-- The reply to Read Index List with one controller. -/
def indexListOf (index : UInt8) : Bytes :=
  [0x01, 0, 0xff, 0xff, 7, 0, 0x03, 0, 0, 1, 0, index, 0]

/-- The reply to Read Info of a controller, with its settings. -/
def infoOf (index settings : UInt8) : Bytes :=
  [0x01, 0, index, 0, 23, 0, 0x04, 0, 0] ++ List.replicate 13 0 ++ [settings, 0, 0, 0, 0, 0, 0]

/-- The reply to Set Powered of a controller. -/
def poweredReply (index : UInt8) : Bytes := [0x01, 0, index, 0, 7, 0, 0x05, 0, 0, 1, 0, 0, 0]

/-- The answers of a call that reads the settings of a controller. -/
def infoProbe (index settings : UInt8) : List ((o : NativeOp) → o.Ret) :=
  List.replicate 4 (delivers (indexListOf index)) ++ List.replicate 2
    (delivers (infoOf index settings))

/-- A controller on the USB bus. -/
def usbPath : (o : NativeOp) → o.Ret
  | .realpath _ => some "/sys/devices/platform/usb1/1-1/1-1:1.0/bluetooth/hci1"
  | o => delivers [] o

/-- The answers of a request that brings a USB controller up: only `hci0` is listed at first,
    after HCIDEVUP the controller is listed without power. -/
def usbPowerOn : List ((o : NativeOp) → o.Ret) :=
  List.replicate 4 (delivers (indexListOf 0)) ++ List.replicate 3 usbPath ++ infoProbe 1 0 ++
    infoProbe 1 0 ++ List.replicate 4 (delivers (poweredReply 1))

/-- The answers of a request that switches a controller on and reads it back. -/
def powerOn : List ((o : NativeOp) → o.Ret) :=
  infoProbe 0 0 ++ infoProbe 0 0 ++ List.replicate 4 (delivers (poweredReply 0)) ++ infoProbe 0 1

/-- A test for Set Powered. -/
def setsPowered : NativeOp → Bool
  | .send opcode _ _ => opcode == mgmtOpSetPowered
  | _ => false

theorem setsPowered_elim {o : NativeOp} (h : setsPowered o = true) :
    ∃ index payload, o = .send mgmtOpSetPowered index payload := by
  unfold setsPowered at h
  split at h
  · next index payload =>
    rw [beq_iff_eq] at h
    exact ⟨index, payload, by rw [h]⟩
  · cases h

/-- A test for HCIDEVUP. -/
def bringsUp : NativeOp → Bool
  | .hciDevUp _ => true
  | _ => false

end Sample

private theorem usbPowerOn_log : ((requestBluetoothPower "hci1" true {}).feed Sample.usbPowerOn).any
    (fun x => x.1.1 && match x.2.reverse with
      | ⟨.receive 250 0x0005 1 none, _⟩ :: ⟨.send 0x0005 1 _, none⟩ :: _ => true
      | _ => false) = true := by
  decide

private theorem usbPowerOn_runs : ∃ before payload answer g,
    Does (requestBluetoothPower "hci1" true) {} (before ++
      [⟨.send mgmtOpSetPowered 1 payload, none⟩, ⟨.receive 250 mgmtOpSetPowered 1 none, answer⟩])
      true g := by
  obtain ⟨x, hx, htest⟩ := (Option.any_eq_true _ _).mp usbPowerOn_log
  rw [Bool.and_eq_true] at htest
  obtain ⟨htrue, hmatch⟩ := htest
  have hdoes := Does.of_feed hx
  rw [htrue, ← List.reverse_reverse x.2] at hdoes
  split at hmatch
  · next answer payload before hlog =>
    rw [hlog] at hdoes
    simp only [List.reverse_cons, List.append_assoc, List.cons_append, List.nil_append] at hdoes
    exact ⟨before.reverse, payload, answer, _, hdoes⟩
  · cases hmatch

/-- A USB controller that registers without power: the request succeeds with Set Powered, and
    no call follows. -/
theorem power_not_read_back : ¬ ∀ interface powered g log g',
    Does (requestBluetoothPower interface powered) g log true g' →
      ReadBack interface powered log := by
  intro hall
  obtain ⟨before, payload, answer, g, hdoes⟩ := usbPowerOn_runs
  refine not_readBack_of_sent (fun x hx => ?_) (hall _ _ _ _ _ hdoes)
  rw [List.mem_singleton.mp hx]

/-- A controller without power is sent Set Powered, and read back with power. -/
theorem power_read_back_written : ∃ log g',
    Does (requestBluetoothPower "hci0" true) {} log true g' ∧
    (∃ x ∈ log, ∃ index payload, x.1 = .send mgmtOpSetPowered index payload) ∧
    ReadBack "hci0" true log := by
  have heval : ((requestBluetoothPower "hci0" true {}).feed Sample.powerOn).any (fun x =>
      x.1.1 && (x.2.any fun y => Sample.setsPowered y.1) &&
        x.2.all fun y => !Sample.bringsUp y.1) = true := by
    decide
  obtain ⟨x, hx, htest⟩ := (Option.any_eq_true _ _).mp heval
  simp only [Bool.and_eq_true, List.any_eq_true, List.all_eq_true, Bool.not_eq_true'] at htest
  obtain ⟨⟨htrue, y, hy, hwrite⟩, hup⟩ := htest
  have hdoes := Does.of_feed hx
  rw [htrue] at hdoes
  refine ⟨x.2, x.1.2, hdoes, ⟨y, hy, Sample.setsPowered_elim hwrite⟩,
    (power_read_back hdoes).mpr ⟨fun h => ?_, not_registersUnpowered fun z hz index heq => ?_⟩⟩
  · cases h.1
  · have hno := hup z hz
    rw [heq] at hno
    cases hno

end MsysHal.Native

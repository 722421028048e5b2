import MsysHal.Native.Power

/-!
# The Management client

What a `bluetooth_info` call leaves in `bluetooth_management_error`, from the
answers it saw. Each answer stores one text or none (`recorded`), and the text
after a call that fails is the last one stored. A call all of whose answers store
nothing leaves the text of an earlier call.

## Key results

- `isIndexListEmpty_iff`, `isIndexMissing_iff`: what the comparisons of the text say
- `mgmtCommand_spec`, `bluetoothInfo_spec`: how a command and a call end
- `index_missing_fresh`: when an empty index list is reported, it was delivered in
  the same call, unless an old text was left behind
-/

namespace MsysHal.Native

open Interleave (Log Does Composes Keeps does_pure does_bind does_ask does_ask_bind
  does_get_bind does_modify_bind)

/-! ## The steps -/

theorem does_call {o : NativeOp} {g g' : Globals} {log : Log nativeSig} {r : o.Ret} :
    Does (call o) g log r g' ↔ log = [⟨o, r⟩] ∧ g' = g := does_ask

theorem does_call_bind {α : Type} {o : NativeOp} {f : o.Ret → NativeM α} {g g' : Globals}
    {log : Log nativeSig} {a : α} : Does (call o >>= f) g log a g' ↔
      ∃ r log', log = ⟨o, r⟩ :: log' ∧ Does (f r) g log' a g' := does_ask_bind

/-- A failure is stored and a result returned. -/
theorem does_error {α : Type} {stage : Stage} {code : Int} {g g' : Globals}
    {log : Log nativeSig} {a b : α} :
    Does (bluetoothError stage code >>= fun _ => (pure a : NativeM α)) g log b g' ↔
      log = [] ∧ b = a ∧ g' = { g with error := .failed stage code } :=
  does_pure (s := { g with error := .failed stage code })

theorem does_modify_pure {α : Type} {f : Globals → Globals} {g g' : Globals}
    {log : Log nativeSig} {a b : α} :
    Does (modify f >>= fun _ => (pure a : NativeM α)) g log b g' ↔
      log = [] ∧ b = a ∧ g' = f g :=
  does_pure (s := f g)

/-! ## The text -/

private theorem toString_eq_zero {code : Int} : code.repr.toList = ['0'] ↔ code = 0 := by
  constructor
  · intro h
    cases code with
    | ofNat n =>
      have hrepr : (toString n).toList = ['0'] := h
      have hn := congrArg (fun digits => Nat.ofDigitChars 10 digits 0) hrepr
      simp only [Nat.toString_eq_repr, Nat.toList_repr] at hn
      rw [Nat.ofDigitChars_toDigits (by decide) (by decide)] at hn
      rw [hn]
      rfl
    | negSucc n =>
      have hrepr : ("-" ++ toString (n + 1)).toList = ['0'] := h
      simp [String.toList_append] at hrepr
  · rintro rfl
    rfl

theorem isIndexListEmpty_iff {error : ManagementError} :
    error.isIndexListEmpty = true ↔ error = .failed .indexList 0 := by
  rw [ManagementError.isIndexListEmpty, beq_iff_eq, ← String.toList_inj]
  cases error with
  | notProbed => decide
  | none => decide
  | failed stage code =>
    simp only [ManagementError.text, String.toList_append]
    cases stage <;> simp [Stage.name, toString_eq_zero]

theorem isIndexMissing_iff {error : ManagementError} :
    error.isIndexMissing = true ↔ ∃ code, error = .failed .indexMissing code := by
  rw [ManagementError.isIndexMissing]
  cases error with
  | notProbed => simp [ManagementError.text]
  | none => simp [ManagementError.text]
  | failed stage code =>
    simp only [ManagementError.text, String.toList_append]
    cases stage <;> simp [Stage.name]

theorem text_eq_notProbed_iff {error : ManagementError} :
    error.text = "not-probed" ↔ error = .notProbed := by
  rw [← String.toList_inj]
  cases error with
  | notProbed => decide
  | none => decide
  | failed stage code =>
    simp only [ManagementError.text, String.toList_append]
    cases stage <;> simp [Stage.name]

/-! ## What an answer stores -/

/-- An operation and its answer. -/
abbrev Answer := (o : NativeOp) × o.Ret

/-- What a datagram stores while the controller `preferred` is looked up. -/
def recordedDatagram (preferred opcode : Nat) : Datagram → Option ManagementError
  | .rejected stage code => some (.failed stage code)
  | .reply data =>
    if opcode = mgmtOpReadIndexList then
      match selectIndex preferred data with
      | .rejected stage code => some (.failed stage code)
      | .short => none
      | .selected => none
    else if opcode = mgmtOpReadInfo ∧ 20 ≤ data.length then some .none
    else none
  | .found _ => none
  | .unrelated => none
  | .oversized => none

/-- The text that an answer stores while the controller `preferred` is looked up. -/
def recorded (preferred : Nat) : Answer → Option ManagementError
  | ⟨.socket, some code⟩ => some (.failed .socket code)
  | ⟨.bind, some code⟩ => some (.failed .bind code)
  | ⟨.send _ _ _, some code⟩ => some (.failed .send code)
  | ⟨.receive _ _ _ _, .idle code⟩ => some (.failed .poll code)
  | ⟨.receive _ _ _ _, .failed code⟩ => some (.failed .recv code)
  | ⟨.receive _ opcode index capacity, .packet data⟩ =>
    recordedDatagram preferred opcode (classify opcode index capacity data)
  | _ => none

/-- The text after the answers of a log. -/
def errorAfter (preferred : Nat) (error : ManagementError) (log : List Answer) : ManagementError :=
  log.foldl (fun error x => (recorded preferred x).getD error) error

/-- Whether an answer is a successful reply to Read Index List without a controller. -/
def deliversEmptyList : Answer → Bool
  | ⟨.receive _ opcode index capacity, .packet data⟩ =>
    match classify opcode index capacity data with
    | .reply response =>
      opcode == mgmtOpReadIndexList && decide (2 ≤ response.length) && readLe16 response 0 == 0
    | _ => false
  | _ => false

theorem errorAfter_cons (preferred : Nat) (error : ManagementError) (x : Answer)
    (log : List Answer) : errorAfter preferred error (x :: log) =
      errorAfter preferred ((recorded preferred x).getD error) log := rfl

theorem errorAfter_append (preferred : Nat) (error : ManagementError) (log log' : List Answer) :
    errorAfter preferred error (log ++ log') =
      errorAfter preferred (errorAfter preferred error log) log' :=
  List.foldl_append

/-- Either no answer stores anything, or the text is one that an answer stored. -/
theorem errorAfter_cases (preferred : Nat) (error : ManagementError) (log : List Answer) :
    (errorAfter preferred error log = error ∧ ∀ x ∈ log, recorded preferred x = none) ∨
    ∃ x ∈ log, recorded preferred x = some (errorAfter preferred error log) := by
  induction log generalizing error with
  | nil => exact .inl ⟨rfl, fun x hx => nomatch hx⟩
  | cons x log ih =>
    rw [errorAfter_cons]
    rcases ih ((recorded preferred x).getD error) with ⟨heq, hnone⟩ | ⟨y, hy, hrec⟩
    · cases hx : recorded preferred x with
      | none =>
        rw [hx] at heq
        exact .inl ⟨heq, List.forall_mem_cons.mpr ⟨hx, hnone⟩⟩
      | some e =>
        rw [hx] at heq
        exact .inr ⟨x, List.mem_cons_self, by rw [hx, heq]; rfl⟩
    · exact .inr ⟨y, List.mem_cons_of_mem x hy, hrec⟩

theorem errorAfter_of_none {preferred : Nat} {error : ManagementError} {log : List Answer}
    (h : ∀ x ∈ log, recorded preferred x = none) : errorAfter preferred error log = error := by
  rcases errorAfter_cases preferred error log with ⟨heq, -⟩ | ⟨x, hx, hrec⟩
  · exact heq
  · rw [h x hx] at hrec
    exact nomatch hrec

/-- A datagram is rejected for its length or its status. -/
theorem classify_rejected {opcode index : Nat} {capacity : Option Nat} {data : Bytes}
    {stage : Stage} {code : Int} (h : classify opcode index capacity data = .rejected stage code) :
    stage = .recv ∨ stage = .length ∨ stage = .status := by
  rw [classify] at h
  split_ifs at h <;> simp only [Datagram.rejected.injEq] at h
  · exact .inl h.1.symm
  · exact .inr (.inl h.1.symm)
  · exact .inr (.inr h.1.symm)

private theorem selectIndex_rejected {preferred : Nat} {response : Bytes} :
    selectIndex preferred response = .rejected .indexList 0 ↔
      2 ≤ response.length ∧ readLe16 response 0 = 0 := by
  rw [selectIndex]
  split_ifs with hshort hcount hmem
  · simp only [false_iff]
    omega
  · simp only [IndexList.rejected.injEq, true_and]
    omega
  · simp only [false_iff]
    omega
  · simp only [IndexList.rejected.injEq, reduceCtorEq, false_and, false_iff]
    omega

private theorem recordedDatagram_eq_indexList_iff {preferred opcode index : Nat}
    {capacity : Option Nat} {data : Bytes} :
    recordedDatagram preferred opcode (classify opcode index capacity data) =
      some (.failed .indexList 0) ↔
    ∃ response, classify opcode index capacity data = .reply response ∧
      opcode = mgmtOpReadIndexList ∧ 2 ≤ response.length ∧ readLe16 response 0 = 0 := by
  cases hclass : classify opcode index capacity data with
  | rejected stage code =>
    simp only [recordedDatagram, Option.some.injEq, ManagementError.failed.injEq, reduceCtorEq,
      false_and, exists_false, iff_false]
    rcases classify_rejected hclass with rfl | rfl | rfl <;> simp
  | found payload => simp [recordedDatagram]
  | unrelated => simp [recordedDatagram]
  | oversized => simp [recordedDatagram]
  | reply response =>
    simp only [recordedDatagram, Datagram.reply.injEq, exists_eq_left']
    by_cases hop : opcode = mgmtOpReadIndexList
    · rw [if_pos hop, ← @selectIndex_rejected preferred]
      cases selectIndex preferred response <;> simp [hop]
    · rw [if_neg hop]
      simp only [hop, false_and, iff_false]
      split_ifs <;> simp

/-- The text of an empty index list is stored by an empty index list only. -/
theorem recorded_eq_indexList_iff {preferred : Nat} {x : Answer} :
    recorded preferred x = some (.failed .indexList 0) ↔ deliversEmptyList x = true := by
  obtain ⟨o, r⟩ := x
  cases o with
  | socket => cases r <;> simp [recorded, deliversEmptyList]
  | bind => cases r <;> simp [recorded, deliversEmptyList]
  | send opcode index payload => cases r <;> simp [recorded, deliversEmptyList]
  | receive timeout opcode index capacity =>
    cases r with
    | idle code => simp [recorded, deliversEmptyList]
    | failed code => simp [recorded, deliversEmptyList]
    | packet data =>
      rw [recorded, recordedDatagram_eq_indexList_iff, deliversEmptyList]
      cases classify opcode index capacity data <;> simp [and_assoc]
  | _ => simp [recorded, deliversEmptyList]

/-! ## How a call ends -/

/-- What holds of the part of a call that reads no controller information: the text is the
    last one stored. -/
structure Unread (preferred : Nat) (g : Globals) (log : Log nativeSig) (g' : Globals) : Prop where
  error : g'.error = errorAfter preferred g.error log
  unread : ∀ x ∈ log, recorded preferred x ≠ some .none

theorem Unread.composes (preferred : Nat) : Composes (Unread preferred) where
  nil g := ⟨rfl, fun x hx => nomatch hx⟩
  append h h' := {
    error := by rw [h'.error, h.error, errorAfter_append]
    unread := fun x hx => (List.mem_append.mp hx).elim (h.unread x) (h'.unread x) }

/-- One answer, and what it stores. -/
theorem Unread.of_answer {preferred : Nat} {g g' : Globals} {x : Answer}
    (herror : g'.error = (recorded preferred x).getD g.error)
    (hread : recorded preferred x ≠ some .none) : Unread preferred g [x] g' :=
  ⟨herror, fun y hy => by rwa [List.mem_singleton.mp hy]⟩

theorem bluetoothSocket_unread (preferred : Nat) : Keeps (Unread preferred) bluetoothSocket := by
  intro g log ok g' h
  obtain ⟨opened, log', rfl, hbind⟩ := does_call_bind.mp h
  cases opened with
  | some code =>
    obtain ⟨rfl, -, rfl⟩ := does_error.mp hbind
    exact .of_answer rfl nofun
  | none =>
    obtain ⟨bound, log'', rfl, hend⟩ := does_call_bind.mp hbind
    have hopen : Unread preferred g [⟨.socket, none⟩] g := .of_answer rfl nofun
    apply (Unread.composes preferred).append hopen
    cases bound with
    | some code =>
      obtain ⟨rfl, -, rfl⟩ := does_error.mp hend
      exact .of_answer rfl nofun
    | none =>
      obtain ⟨rfl, -, rfl⟩ := does_pure.mp hend
      exact .of_answer rfl nofun

/-- A receive returns the reply of a datagram, or stores what its answer stores. -/
theorem receiveMgmtEvent_spec {timeout opcode index : Nat} {capacity : Option Nat} {g g' : Globals}
    {log : Log nativeSig} {result : EventResult}
    (h : Does (receiveMgmtEvent timeout opcode index capacity) g log result g') :
    (∃ d data, log = [⟨.receive timeout opcode index capacity, .packet d⟩] ∧
      classify opcode index capacity d = .reply data ∧ result = .reply data ∧ g' = g) ∨
    ((∀ data, result ≠ .reply data) ∧ ∀ preferred, Unread preferred g log g') := by
  obtain ⟨answer, log', rfl, hend⟩ := does_call_bind.mp h
  cases answer with
  | idle code =>
    obtain ⟨rfl, rfl, rfl⟩ := does_error.mp hend
    exact .inr ⟨nofun, fun preferred => .of_answer rfl nofun⟩
  | failed code =>
    obtain ⟨rfl, rfl, rfl⟩ := does_error.mp hend
    exact .inr ⟨nofun, fun preferred => .of_answer rfl nofun⟩
  | packet d =>
    dsimp only at hend
    have hstored (preferred : Nat) : recorded preferred ⟨.receive timeout opcode index capacity,
      .packet d⟩ = recordedDatagram preferred opcode (classify opcode index capacity d) := rfl
    -- Only a reply reaches the caller; the other datagrams are forgotten or stored as an error.
    cases hclass : classify opcode index capacity d with
    | rejected stage code =>
      rw [hclass] at hend
      obtain ⟨rfl, rfl, rfl⟩ := does_error.mp hend
      refine .inr ⟨nofun, fun preferred => ?_⟩
      apply Unread.of_answer <;> rw [hstored, hclass]
      · rfl
      · exact nofun
    | found payload =>
      rw [hclass] at hend
      obtain ⟨rfl, rfl, rfl⟩ := (does_modify_pure).mp hend
      refine .inr ⟨nofun, fun preferred => ?_⟩
      apply Unread.of_answer <;> rw [hstored, hclass]
      · rfl
      · exact nofun
    | unrelated =>
      rw [hclass] at hend
      obtain ⟨rfl, rfl, rfl⟩ := does_pure.mp hend
      refine .inr ⟨nofun, fun preferred => ?_⟩
      apply Unread.of_answer <;> rw [hstored, hclass]
      · rfl
      · exact nofun
    | oversized =>
      rw [hclass] at hend
      obtain ⟨rfl, rfl, rfl⟩ := does_pure.mp hend
      refine .inr ⟨nofun, fun preferred => ?_⟩
      apply Unread.of_answer <;> rw [hstored, hclass]
      · rfl
      · exact nofun
    | reply data =>
      rw [hclass] at hend
      obtain ⟨rfl, rfl, rfl⟩ := does_pure.mp hend
      exact .inl ⟨d, data, rfl, hclass, rfl, rfl⟩

/-- How a command ends: without a reply, or with one that was its last answer. -/
def CommandEnds (opcode index : Nat) (capacity : Option Nat) (preferred : Nat) (g : Globals)
    (log : Log nativeSig) (g' : Globals) : Option Bytes → Prop
  | none => Unread preferred g log g'
  | some data => ∃ before d, log = before ++ [⟨.receive 250 opcode index capacity, .packet d⟩] ∧
      classify opcode index capacity d = .reply data ∧ Unread preferred g before g'

theorem CommandEnds.prepend {opcode index : Nat} {capacity : Option Nat} {preferred : Nat}
    {g g' g'' : Globals} {log log' : Log nativeSig} {reply : Option Bytes}
    (h : Unread preferred g log g')
    (h' : CommandEnds opcode index capacity preferred g' log' g'' reply) :
    CommandEnds opcode index capacity preferred g (log ++ log') g'' reply := by
  cases reply with
  | none => exact (Unread.composes preferred).append h h'
  | some data =>
    obtain ⟨before, d, rfl, hclass, hbefore⟩ := h'
    exact ⟨log ++ before, d, by rw [List.append_assoc], hclass,
      (Unread.composes preferred).append h hbefore⟩

private theorem awaitReply_spec {opcode index : Nat} {capacity : Option Nat} {attempts : Nat}
    {g g' : Globals} {log : Log nativeSig} {reply : Option Bytes} (preferred : Nat)
    (h : Does (awaitReply opcode index capacity attempts) g log reply g') :
    CommandEnds opcode index capacity preferred g log g' reply := by
  induction attempts generalizing g log with
  | zero =>
    obtain ⟨rfl, rfl, rfl⟩ := does_pure.mp h
    exact (Unread.composes preferred).nil g'
  | succ attempts ih =>
    rw [awaitReply] at h
    obtain ⟨result, g₁, log₁, log₂, rfl, hreceive, hrest⟩ := does_bind.mp h
    rcases receiveMgmtEvent_spec hreceive with ⟨d, data, rfl, hclass, rfl, rfl⟩ | ⟨hne, hunread⟩
    · obtain ⟨rfl, rfl, rfl⟩ := does_pure.mp hrest
      exact ⟨[], d, rfl, hclass, (Unread.composes preferred).nil _⟩
    · cases result with
      | reply data => exact absurd rfl (hne data)
      | failed =>
        obtain ⟨rfl, rfl, rfl⟩ := does_pure.mp hrest
        rw [List.append_nil]
        exact hunread preferred
      -- a timeout and an unrelated datagram use up an attempt
      | timeout => exact .prepend (hunread preferred) (ih hrest)
      | other => exact .prepend (hunread preferred) (ih hrest)

/-- A command that gets no reply stores what its answers store; a reply is its last answer. -/
theorem mgmtCommand_spec {opcode index : Nat} {payload : Bytes} {capacity : Option Nat}
    {g g' : Globals} {log : Log nativeSig} {reply : Option Bytes} (preferred : Nat)
    (h : Does (mgmtCommand opcode index payload capacity) g log reply g') :
    CommandEnds opcode index capacity preferred g log g' reply := by
  rw [mgmtCommand] at h
  split at h
  · obtain ⟨rfl, rfl, rfl⟩ := does_pure.mp h
    exact (Unread.composes preferred).nil g'
  · obtain ⟨sent, log', rfl, hrest⟩ := does_call_bind.mp h
    cases sent with
    | some code =>
      obtain ⟨rfl, rfl, rfl⟩ := does_error.mp hrest
      exact Unread.of_answer rfl nofun
    | none =>
      have hsent : Unread preferred g [⟨.send opcode index payload, none⟩] g :=
        .of_answer rfl nofun
      exact .prepend hsent (awaitReply_spec preferred hrest)

/-- The index list is looked up for the controller that is preferred. -/
theorem mgmtControllerIndex_unread (preferred : Nat) :
    Keeps (Unread preferred) (mgmtControllerIndex preferred) := by
  intro g log ok g' h
  obtain ⟨reply, g₁, log₁, log₂, rfl, hcommand, hend⟩ := does_bind.mp h
  have hends := mgmtCommand_spec preferred hcommand
  cases reply with
  | none =>
    obtain ⟨rfl, -, rfl⟩ := does_pure.mp hend
    rw [List.append_nil]
    exact hends
  | some response =>
    obtain ⟨before, d, rfl, hclass, hbefore⟩ := hends
    have hstored : recorded preferred ⟨.receive 250 mgmtOpReadIndexList hciDevNone
        (some (2 + maxEntries * 2)), .packet d⟩ =
        recordedDatagram preferred mgmtOpReadIndexList (.reply response) :=
      congrArg (recordedDatagram preferred mgmtOpReadIndexList) hclass
    rw [recordedDatagram, if_pos rfl] at hstored
    dsimp only at hend
    rw [List.append_assoc]
    apply (Unread.composes preferred).append hbefore
    cases hsel : selectIndex preferred response with
    | rejected stage code =>
      rw [hsel] at hend hstored
      obtain ⟨rfl, -, rfl⟩ := does_error.mp hend
      exact .of_answer (by rw [hstored]; rfl) (by rw [hstored]; exact nofun)
    | short =>
      rw [hsel] at hend hstored
      obtain ⟨rfl, -, rfl⟩ := does_pure.mp hend
      exact .of_answer (by rw [hstored]; rfl) (by rw [hstored]; exact nofun)
    | selected =>
      rw [hsel] at hend hstored
      obtain ⟨rfl, -, rfl⟩ := does_pure.mp hend
      exact .of_answer (by rw [hstored]; rfl) (by rw [hstored]; exact nofun)

/-- The text that a call leaves behind when it fails: a process that has not probed yet
    gets one of its own. -/
def FailedText (error error' : ManagementError) : Prop :=
  error' = error ∨ error = .notProbed ∧ ∃ code, error' = .failed .readInfo code

private theorem infoFailed_spec {n : Nat} {g g' : Globals} {log : Log nativeSig}
    {r : Option BluetoothInfo} (h : Does (infoFailed n) g log r g') :
    log = [] ∧ r = none ∧ FailedText g.error g'.error ∧ g'.found = g.found := by
  replace h := does_get_bind.mp h
  split at h
  · next htext =>
    obtain ⟨rfl, rfl, rfl⟩ := does_error.mp h
    exact ⟨rfl, rfl, .inr ⟨text_eq_notProbed_iff.mp htext, _, rfl⟩, rfl⟩
  · obtain ⟨rfl, rfl, rfl⟩ := does_pure.mp h
    exact ⟨rfl, rfl, .inl rfl, rfl⟩

/-- How a `bluetooth_info` call for the controller `preferred` ends: it fails with the last
    text that was stored, or the reply to Read Info was its last answer. -/
def InfoEnds (preferred : Nat) (g : Globals) (log : Log nativeSig) (g' : Globals) :
    Option BluetoothInfo → Prop
  | none => (∀ x ∈ log, recorded preferred x ≠ some .none) ∧
      FailedText (errorAfter preferred g.error log) g'.error
  | some info => g'.error = .none ∧ ∃ before d response,
      log = before ++ [⟨.receive 250 mgmtOpReadInfo preferred (some 512), .packet d⟩] ∧
      classify mgmtOpReadInfo preferred (some 512) d = .reply response ∧ 20 ≤ response.length ∧
      info = readInfoReply preferred response ∧ ∀ x ∈ before, recorded preferred x ≠ some .none

private theorem InfoEnds.of_failed {preferred n : Nat} {g g₁ g' : Globals}
    {log log' : Log nativeSig} {r : Option BluetoothInfo} (hunread : Unread preferred g log g₁)
    (h : Does (infoFailed n) g₁ log' r g') : InfoEnds preferred g (log ++ log') g' r := by
  obtain ⟨rfl, rfl, htext, -⟩ := infoFailed_spec h
  rw [List.append_nil]
  exact ⟨hunread.unread, hunread.error ▸ htext⟩

/-- How a `bluetooth_info` call ends. -/
theorem bluetoothInfo_spec {interface : String} {preferred : Nat} {g g' : Globals}
    {log : Log nativeSig} {r : Option BluetoothInfo}
    (hindex : bluetoothIndex interface = some preferred)
    (h : Does (bluetoothInfo interface) g log r g') : InfoEnds preferred g log g' r := by
  rw [bluetoothInfo, hindex] at h
  obtain ⟨opened, g₁, log₁, log₂, rfl, hsocket, hrest⟩ := does_bind.mp h
  have hopen := bluetoothSocket_unread preferred _ _ _ _ hsocket
  cases opened with
  | false =>
    obtain ⟨rfl, rfl, rfl⟩ := does_pure.mp hrest
    rw [List.append_nil]
    exact ⟨hopen.unread, .inl hopen.error⟩
  | true =>
    obtain ⟨selected, g₂, log₃, log₄, rfl, hlist, hrest⟩ := does_bind.mp hrest
    have hselect := (Unread.composes preferred).append hopen
      (mgmtControllerIndex_unread preferred _ _ _ _ hlist)
    rw [← List.append_assoc]
    cases selected with
    | false => exact .of_failed hselect hrest
    | true =>
      obtain ⟨reply, g₃, log₅, log₆, rfl, hcommand, hend⟩ := does_bind.mp hrest
      have hends := CommandEnds.prepend hselect (mgmtCommand_spec preferred hcommand)
      rw [← List.append_assoc]
      cases reply with
      | none => exact .of_failed hends hend
      | some response =>
        -- The last answer is the reply itself, which is stored only if it is too short.
        obtain ⟨before, d, hlog, hclass, hbefore⟩ := hends
        have hstored : recorded preferred ⟨.receive 250 mgmtOpReadInfo preferred (some 512),
            .packet d⟩ = recordedDatagram preferred mgmtOpReadInfo (.reply response) :=
          congrArg (recordedDatagram preferred mgmtOpReadInfo) hclass
        rw [recordedDatagram, if_neg (by decide)] at hstored
        rw [hlog]
        dsimp only at hend
        split at hend
        · next hshort =>
          rw [if_neg (by omega)] at hstored
          have hread := (Unread.composes preferred).append hbefore
            (.of_answer (by rw [hstored]; rfl) (by rw [hstored]; exact nofun))
          exact .of_failed hread hend
        · next hlong =>
          obtain ⟨rfl, rfl, rfl⟩ := does_modify_pure.mp hend
          rw [List.append_nil]
          exact ⟨rfl, before, d, response, rfl, hclass, by omega, rfl, hbefore.unread⟩

/-- A call for a name that is not a controller's does nothing. -/
theorem bluetoothInfo_invalid {interface : String} {g g' : Globals} {log : Log nativeSig}
    {r : Option BluetoothInfo} (hindex : bluetoothIndex interface = none)
    (h : Does (bluetoothInfo interface) g log r g') : log = [] ∧ r = none ∧ g' = g := by
  rw [bluetoothInfo, hindex] at h
  exact does_pure.mp h

/-! ## Old and new texts -/

/-- No answer of the call stores a text or gives controller information. -/
def Mute (interface : String) (log : Log nativeSig) : Prop :=
  ∀ preferred, bluetoothIndex interface = some preferred → ∀ x ∈ log, recorded preferred x = none

/-- A call of a run, with the globals around it and the answers it saw. -/
structure InfoCall where
  interface : String
  before : Globals
  log : Log nativeSig
  result : Option BluetoothInfo
  after : Globals

/-- Calls one after the other. -/
inductive InfoRun : Globals → List InfoCall → Prop where
  | nil (g : Globals) : InfoRun g []
  | cons {c : InfoCall} {calls : List InfoCall}
    (h : Does (bluetoothInfo c.interface) c.before c.log c.result c.after)
    (rest : InfoRun c.after calls) : InfoRun c.before (c :: calls)

/-- A call that fails and leaves the text of an empty index list was delivered one. -/
def InfoCall.Truthful (c : InfoCall) : Prop :=
  c.result = none → c.after.error.isIndexListEmpty = true → ∃ x ∈ c.log, deliversEmptyList x = true

/-- A call starts with the text of an empty index list and no answer replaces it. -/
def InfoCall.Stale (c : InfoCall) : Prop :=
  c.before.error.isIndexListEmpty = true ∧ Mute c.interface c.log

theorem not_truthful_of_stale {c : InfoCall}
    (h : Does (bluetoothInfo c.interface) c.before c.log c.result c.after) (hstale : c.Stale) :
    ¬ c.Truthful := by
  intro htrue
  obtain ⟨hbefore, hmute⟩ := hstale
  cases hindex : bluetoothIndex c.interface with
  | none =>
    obtain ⟨hlog, hresult, hafter⟩ := bluetoothInfo_invalid hindex h
    obtain ⟨x, hx, -⟩ := htrue hresult (hafter ▸ hbefore)
    rw [hlog] at hx
    exact nomatch hx
  | some preferred =>
    have hnone := hmute preferred hindex
    have hends := bluetoothInfo_spec hindex h
    cases hresult : c.result with
    | some info =>
      rw [hresult] at hends
      obtain ⟨-, before, d, response, hlog, hclass, hlong, -, -⟩ := hends
      have hlast := hnone _ (hlog ▸ List.mem_append_right _ (List.mem_singleton_self _))
      rw [recorded, hclass, recordedDatagram, if_neg (by decide), if_pos ⟨rfl, hlong⟩] at hlast
      exact nomatch hlast
    | none =>
      rw [hresult] at hends
      obtain ⟨-, htext⟩ := hends
      rw [errorAfter_of_none hnone, isIndexListEmpty_iff.mp hbefore] at htext
      obtain heq | ⟨hne, -⟩ := htext
      · obtain ⟨x, hx, hempty⟩ := htrue hresult (isIndexListEmpty_iff.mpr heq)
        have hrec : recorded preferred x = some _ := recorded_eq_indexList_iff.mpr hempty
        rw [hnone x hx] at hrec
        exact nomatch hrec
      · exact nomatch hne

theorem truthful_of_not_stale {c : InfoCall}
    (h : Does (bluetoothInfo c.interface) c.before c.log c.result c.after) (hstale : ¬ c.Stale) :
    c.Truthful := by
  intro hresult hmissing
  cases hindex : bluetoothIndex c.interface with
  | none =>
    obtain ⟨hlog, -, hafter⟩ := bluetoothInfo_invalid hindex h
    refine absurd ⟨hafter ▸ hmissing, fun preferred hsome => ?_⟩ hstale
    rw [hindex] at hsome
    exact nomatch hsome
  | some preferred =>
    have hends := bluetoothInfo_spec hindex h
    rw [hresult] at hends
    obtain ⟨-, htext⟩ := hends
    rw [isIndexListEmpty_iff.mp hmissing] at htext
    obtain heq | ⟨-, code, hne⟩ := htext
    · rcases errorAfter_cases preferred c.before.error c.log with ⟨hsame, hnone⟩ | ⟨x, hx, hrec⟩
      · refine absurd ⟨isIndexListEmpty_iff.mpr (hsame ▸ heq.symm), fun p hp => ?_⟩ hstale
        rw [hindex, Option.some.injEq] at hp
        exact hp ▸ hnone
      · exact ⟨x, hx, recorded_eq_indexList_iff.mp (heq ▸ hrec)⟩
    · exact nomatch hne

/-- In a run of `bluetooth_info` calls each one that fails and leaves the text of an empty
    index list was delivered one, exactly if no call starts with that text and sees only
    answers that store nothing. -/
theorem index_missing_fresh {g : Globals} {calls : List InfoCall} (h : InfoRun g calls) :
    (∀ c ∈ calls, c.Truthful) ↔ ∀ c ∈ calls, ¬ c.Stale := by
  induction h with
  | nil g => exact ⟨fun _ c hc => (nomatch hc), fun _ c hc => (nomatch hc)⟩
  | cons hdoes _ ih =>
    rw [List.forall_mem_cons, List.forall_mem_cons, ih]
    refine and_congr_left fun _ => ⟨fun htrue hstale => ?_, truthful_of_not_stale hdoes⟩
    exact not_truthful_of_stale hdoes hstale htrue

namespace Sample

/-- A system that lets every call succeed, with a datagram to read. -/
def delivers (data : Bytes) : (o : NativeOp) → o.Ret
  | .socket => none
  | .bind => none
  | .send _ _ _ => none
  | .receive _ _ _ _ => .packet data
  | .rounds => 0
  | .wait _ => ()
  | .list _ => none
  | .read _ => none
  | .writable _ => true
  | .write _ _ => true
  | .realpath _ => none
  | .hciDevUp _ => none
  | .slots => 256

/-- A successful reply to Read Index List without a controller. -/
def emptyIndexList : Bytes := [0x01, 0, 0xff, 0xff, 5, 0, 0x03, 0, 0, 0, 0]

/-- A device that the controller `hci1` has found. -/
def unrelatedEvent : Bytes :=
  [0x12, 0, 1, 0, 14, 0, 0x66, 0x55, 0x44, 0x33, 0x22, 0x11, 0, 0xc0, 0, 0, 0, 0, 0, 0]

/-- The answers of a call that finds no controller. -/
def emptyProbe : List ((o : NativeOp) → o.Ret) := List.replicate 4 (delivers emptyIndexList)

/-- The answers of a call that is delivered events of another controller only. -/
def unrelatedProbe : List ((o : NativeOp) → o.Ret) := List.replicate 15 (delivers unrelatedEvent)

end Sample

/-- A second call that is delivered twelve events of another controller reports the empty
    index list of the first one. -/
theorem index_missing_stale :
    ¬ ∀ calls, InfoRun {} calls → ∀ c ∈ calls, c.Truthful := by
  intro hall
  have heval : ((bluetoothInfo "hci0" {}).feed Sample.emptyProbe).any (fun x =>
      ((bluetoothInfo "hci0" x.1.2).feed Sample.unrelatedProbe).any fun y =>
        y.1.1.isNone && y.1.2.error.isIndexListEmpty && !y.2.any deliversEmptyList) = true := by
    decide
  obtain ⟨x, hx, hrest⟩ := (Option.any_eq_true _ _).mp heval
  obtain ⟨y, hy, htest⟩ := (Option.any_eq_true _ _).mp hrest
  simp only [Bool.and_eq_true, Option.isNone_iff_eq_none, Bool.not_eq_true', List.any_eq_false]
    at htest
  obtain ⟨⟨hnone, hmissing⟩, hempty⟩ := htest
  have hrun : InfoRun {} [⟨"hci0", {}, x.2, x.1.1, x.1.2⟩, ⟨"hci0", x.1.2, y.2, y.1.1, y.1.2⟩] :=
    .cons (c := ⟨"hci0", {}, x.2, x.1.1, x.1.2⟩) (Does.of_feed hx)
      (.cons (c := ⟨"hci0", x.1.2, y.2, y.1.1, y.1.2⟩) (Does.of_feed hy) (.nil _))
  obtain ⟨z, hz, hdelivers⟩ := hall _ hrun ⟨"hci0", x.1.2, y.2, y.1.1, y.1.2⟩
    (List.mem_cons_of_mem _ (List.mem_singleton_self _)) hnone hmissing
  exact hempty z hz hdelivers

/-- Two calls that find no controller: the second starts with the text of the first and is
    told again. -/
theorem index_missing_fresh_twice : ∃ c c', InfoRun {} [c, c'] ∧
    c'.before.error.isIndexListEmpty = true ∧ c.Truthful ∧ c'.Truthful := by
  have heval : ((bluetoothInfo "hci0" {}).feed Sample.emptyProbe).any (fun x =>
      ((bluetoothInfo "hci0" x.1.2).feed Sample.emptyProbe).any fun y =>
        x.1.2.error.isIndexListEmpty && y.2.any fun answer => (recorded 0 answer).isSome) =
      true := by
    decide
  obtain ⟨x, hx, hrest⟩ := (Option.any_eq_true _ _).mp heval
  obtain ⟨y, hy, htest⟩ := (Option.any_eq_true _ _).mp hrest
  rw [Bool.and_eq_true, List.any_eq_true] at htest
  obtain ⟨hbefore, answer, hanswer, hrecorded⟩ := htest
  have hrun : InfoRun {} [⟨"hci0", {}, x.2, x.1.1, x.1.2⟩, ⟨"hci0", x.1.2, y.2, y.1.1, y.1.2⟩] :=
    .cons (c := ⟨"hci0", {}, x.2, x.1.1, x.1.2⟩) (Does.of_feed hx)
      (.cons (c := ⟨"hci0", x.1.2, y.2, y.1.1, y.1.2⟩) (Does.of_feed hy) (.nil _))
  have htruthful := (index_missing_fresh hrun).mpr ?_
  · rw [List.forall_mem_cons, List.forall_mem_singleton] at htruthful
    exact ⟨_, _, hrun, hbefore, htruthful⟩
  · rw [List.forall_mem_cons, List.forall_mem_singleton]
    constructor
    · intro hstale
      cases isIndexListEmpty_iff.mp hstale.1
    · intro hstale
      have hindex : bluetoothIndex "hci0" = some 0 := by decide
      rw [hstale.2 0 hindex answer hanswer] at hrecorded
      cases hrecorded

end MsysHal.Native

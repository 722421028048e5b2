import MsysHal.Native.Power

/-!
# The rfkill recovery

`request_bluetooth_power_with` over functions that answer in any way and store any
error text. The log of a request is the sequence of its calls, so what is proved of
every log holds for every behaviour of the five functions.

## Key results

- `rfkillRecovery_spec`: the recovery is one edge, then probes
- `recovery_bounded`: when a request writes to rfkill, what it writes, and how often
  it probes
-/

namespace MsysHal.Native

open Interleave (Sig Proc Log Does ask does_pure does_bind does_get_bind does_ask_bind)

/-! ## Functions that answer in any way -/

/-- A call of one of the five functions. -/
inductive PowerOp where
  | readInfo (interface : String)
  | writeManagement (interface : String) (powered : Bool)
  | readRfkill (domain : RadioDomain)
  | writeRfkill (domain : RadioDomain) (unblocked : Bool)
  | waitMs (milliseconds : Nat)
deriving DecidableEq

/-- What a call returns. -/
abbrev PowerOp.Value : PowerOp → Type
  | .readInfo _ => Option BluetoothInfo
  | .writeManagement _ _ => Bool
  | .readRfkill _ => Option RadioPower
  | .writeRfkill _ _ => Bool
  | .waitMs _ => Unit

/-- The calls; an answer is what is returned and the error text that is left. -/
abbrev powerSig : Sig := ⟨PowerOp, fun o => o.Value × String⟩

/-- A request; its memory is the error text. -/
abbrev PowerM := Proc powerSig String

/-- Make a call. -/
def consult (o : PowerOp) : PowerM o.Value := do
  let answer ← ask (S := powerSig) o
  set answer.2
  return answer.1

/-- The five functions. -/
def oracles : BluetoothPowerOps PowerM where
  readInfo interface := consult (.readInfo interface)
  writeManagement interface powered := consult (.writeManagement interface powered)
  readRfkill domain := consult (.readRfkill domain)
  writeRfkill domain unblocked := consult (.writeRfkill domain unblocked)
  waitMs milliseconds := consult (.waitMs milliseconds)
  indexMissing := do
    let text ← get
    return text == "index-list:0"

section Calls

variable {α : Type} {text text' : String} {log : Log powerSig} {a : α}

theorem does_consult {o : PowerOp} {v : o.Value} : Does (consult o) text log v text' ↔
    log = [⟨o, (v, text')⟩] := by
  constructor
  · intro h
    obtain ⟨⟨value, left⟩, log', rfl, hend⟩ := does_ask_bind.mp h
    obtain ⟨rfl, rfl, rfl⟩ :=
      does_pure.mp (show Does (pure value : PowerM o.Value) left log' v text' from hend)
    rfl
  · rintro rfl
    exact .step (.pure _)

theorem does_consult_bind {o : PowerOp} {f : o.Value → PowerM α} :
    Does (consult o >>= f) text log a text' ↔
      ∃ v left log', log = ⟨o, (v, left)⟩ :: log' ∧ Does (f v) left log' a text' := by
  rw [does_bind]
  constructor
  · rintro ⟨v, left, log₁, log₂, rfl, hcall, hf⟩
    rw [does_consult.mp hcall]
    exact ⟨v, left, log₂, rfl, hf⟩
  · rintro ⟨v, left, log', rfl, hf⟩
    exact ⟨v, left, [_], log', rfl, does_consult.mpr rfl, hf⟩

theorem does_missing_bind {f : Bool → PowerM α} :
    Does (oracles.indexMissing >>= f) text log a text' ↔
      Does (f (text == "index-list:0")) text log a text' := Iff.rfl

end Calls

/-! ## What a request calls -/

/-- What a call writes to rfkill: whether it unblocks. -/
def rfkillWrite : (o : PowerOp) × o.Value × String → Option Bool
  | ⟨.writeRfkill _ unblocked, _⟩ => some unblocked
  | _ => none

/-- Whether a call is a probe. -/
def isProbe : (o : PowerOp) × o.Value × String → Bool
  | ⟨.readInfo _, _⟩ => true
  | _ => false

/-- The rfkill writes of a log, oldest first. -/
def rfkillWrites (log : Log powerSig) : List Bool := log.filterMap rfkillWrite

theorem rfkillWrites_cons (x : (o : PowerOp) × o.Value × String) (log : Log powerSig) :
    rfkillWrites (x :: log) = (rfkillWrite x).toList ++ rfkillWrites log := by
  cases hx : rfkillWrite x <;> simp [rfkillWrites, hx]

/-- The probes after Set Powered write nothing to rfkill. -/
private theorem awaitPowered_spec {interface : String} {attempts : Nat} {text text' : String}
    {log : Log powerSig} {ok : Bool}
    (h : Does (awaitPowered oracles interface attempts) text log ok text') :
    rfkillWrites log = [] ∧ log.countP isProbe ≤ attempts := by
  induction attempts generalizing text log with
  | zero =>
    obtain ⟨rfl, -, -⟩ := does_pure.mp h
    exact ⟨rfl, le_refl 0⟩
  | succ attempts ih =>
    obtain ⟨r, left, log', rfl, hrest⟩ := does_consult_bind.mp h
    cases r with
    | some info =>
      obtain ⟨rfl, -, -⟩ := does_pure.mp hrest
      exact ⟨rfl, Nat.succ_le_succ (Nat.zero_le attempts)⟩
    | none =>
      obtain ⟨u, left', log'', rfl, hagain⟩ := does_consult_bind.mp hrest
      obtain ⟨hwrites, hcount⟩ := ih hagain
      refine ⟨by rw [rfkillWrites_cons, rfkillWrites_cons, hwrites]; rfl, ?_⟩
      rw [List.countP_cons_of_pos rfl, List.countP_cons_of_neg (by simp [isProbe])]
      exact Nat.succ_le_succ hcount

/-- The probes after an rfkill edge write nothing more to rfkill. -/
private theorem awaitReprobe_spec {interface : String} {attempts : Nat} {text text' : String}
    {log : Log powerSig} {ok : Bool}
    (h : Does (awaitReprobe oracles interface attempts) text log ok text') :
    rfkillWrites log = [] ∧ log.countP isProbe ≤ attempts := by
  induction attempts generalizing text log with
  | zero =>
    obtain ⟨rfl, -, -⟩ := does_pure.mp h
    exact ⟨rfl, le_refl 0⟩
  | succ attempts ih =>
    obtain ⟨r, left, log', rfl, hrest⟩ := does_consult_bind.mp h
    have hone : Nat.succ 0 ≤ attempts + 1 := Nat.succ_le_succ (Nat.zero_le attempts)
    cases r with
    | some info =>
      dsimp only at hrest
      split at hrest
      · obtain ⟨rfl, -, -⟩ := does_pure.mp hrest
        exact ⟨rfl, hone⟩
      · obtain ⟨written, left', log'', rfl, hwritten⟩ := does_consult_bind.mp hrest
        cases written with
        | false =>
          obtain ⟨rfl, -, -⟩ := does_pure.mp hwritten
          exact ⟨rfl, hone⟩
        | true =>
          obtain ⟨u, left'', log₃, rfl, hagain⟩ := does_consult_bind.mp hwritten
          obtain ⟨hwrites, hcount⟩ := ih hagain
          refine ⟨by rw [rfkillWrites_cons, rfkillWrites_cons, rfkillWrites_cons, hwrites]; rfl, ?_⟩
          rw [List.countP_cons_of_pos rfl, List.countP_cons_of_neg (by simp [isProbe]),
            List.countP_cons_of_neg (by simp [isProbe])]
          exact Nat.succ_le_succ hcount
    | none =>
      replace hrest := does_missing_bind.mp hrest
      split at hrest
      · obtain ⟨rfl, -, -⟩ := does_pure.mp hrest
        exact ⟨rfl, hone⟩
      · obtain ⟨u, left', log'', rfl, hagain⟩ := does_consult_bind.mp hrest
        obtain ⟨hwrites, hcount⟩ := ih hagain
        refine ⟨by rw [rfkillWrites_cons, rfkillWrites_cons, hwrites]; rfl, ?_⟩
        rw [List.countP_cons_of_pos rfl, List.countP_cons_of_neg (by simp [isProbe])]
        exact Nat.succ_le_succ hcount

/-- The forms that the rfkill writes of a request can have; a block alone is the last call,
    and the request fails with it. -/
inductive Edge (radio : RadioPower) (log : Log powerSig) (ok : Bool) : Prop where
  | none (h : rfkillWrites log = [])
  | unblock (h : rfkillWrites log = [true])
  | failedBlock (h : rfkillWrites log = [false]) (hradio : radio.unblocked = true)
    (hok : ok = false)
      (hlast : ∃ before text, log = before ++ [⟨.writeRfkill .bluetooth false, (false, text)⟩])
  | edge (h : rfkillWrites log = [false, true]) (hradio : radio.unblocked = true)

private theorem unblock_spec {interface : String} {text text' : String} {log : Log powerSig}
    {ok : Bool} (h : Does (do
      match ← oracles.writeRfkill .bluetooth true with
      | false => return false
      | true => awaitReprobe oracles interface 50) text log ok text') :
    rfkillWrites log = [true] ∧ log.countP isProbe ≤ 50 := by
  obtain ⟨written, left, log', rfl, hwritten⟩ := does_consult_bind.mp h
  rw [rfkillWrites_cons, List.countP_cons_of_neg (by simp [isProbe])]
  cases written with
  | false =>
    obtain ⟨rfl, -, -⟩ := does_pure.mp hwritten
    exact ⟨rfl, Nat.zero_le 50⟩
  | true =>
    obtain ⟨hwrites, hcount⟩ := awaitReprobe_spec hwritten
    exact ⟨by rw [hwrites]; rfl, hcount⟩

/-- The recovery for a radio that can be written is one edge, then probes. -/
theorem rfkillRecovery_spec {interface : String} {text text' : String} {log : Log powerSig}
    {ok : Bool} (h : Does (rfkillRecovery oracles interface) text log ok text') :
    ∃ found left rest, log = ⟨.readRfkill .bluetooth, (found, left)⟩ :: rest ∧
      rest.countP isProbe ≤ 50 ∧ (rfkillWrites rest = [] ∨
        ∃ radio, found = some radio ∧ radio.writable = true ∧ radio.hardBlocked = false ∧
          Edge radio rest ok) := by
  obtain ⟨found, left, rest, rfl, hradio⟩ := does_consult_bind.mp h
  refine ⟨found, left, rest, rfl, ?_⟩
  cases found with
  | none =>
    obtain ⟨rfl, -, -⟩ := does_pure.mp hradio
    exact ⟨Nat.zero_le 50, .inl rfl⟩
  | some radio =>
    dsimp only at hradio
    split at hradio
    · obtain ⟨rfl, -, -⟩ := does_pure.mp hradio
      exact ⟨Nat.zero_le 50, .inl rfl⟩
    · next hcan =>
      simp only [Bool.or_eq_true, Bool.not_eq_true', not_or, Bool.not_eq_true,
        Bool.not_eq_false] at hcan
      rw [blockEdge] at hradio
      split at hradio
      -- An unblocked radio is blocked first; a failed block ends the edge.
      · next hunblocked =>
        obtain ⟨blocked, text₁, log₁, log₂, rfl, hblock, hblocked⟩ := does_bind.mp hradio
        obtain ⟨written, left', log₃, rfl, hwritten⟩ := does_consult_bind.mp hblock
        cases written with
        | false =>
          obtain ⟨rfl, rfl, rfl⟩ := does_pure.mp hwritten
          obtain ⟨rfl, rfl, rfl⟩ := does_pure.mp hblocked
          exact ⟨Nat.zero_le 50, .inr ⟨radio, rfl, hcan.2, hcan.1,
            .failedBlock rfl hunblocked rfl ⟨[], _, rfl⟩⟩⟩
        | true =>
          obtain ⟨u, left'', log₄, rfl, hwaited⟩ := does_consult_bind.mp hwritten
          obtain ⟨rfl, rfl, rfl⟩ := does_pure.mp hwaited
          obtain ⟨hwrites, hcount⟩ := unblock_spec hblocked
          refine ⟨hcount, .inr ⟨radio, rfl, hcan.2, hcan.1, .edge ?_ hunblocked⟩⟩
          change rfkillWrites (_ :: _ :: log₂) = _
          rw [rfkillWrites_cons, rfkillWrites_cons, hwrites]
          rfl
      -- A blocked radio is only unblocked.
      · obtain ⟨blocked, text₁, log₁, log₂, rfl, hblock, hblocked⟩ := does_bind.mp hradio
        obtain ⟨rfl, rfl, rfl⟩ := does_pure.mp hblock
        obtain ⟨hwrites, hcount⟩ := unblock_spec hblocked
        exact ⟨hcount, .inr ⟨radio, rfl, hcan.2, hcan.1, .unblock hwrites⟩⟩

/-- What a log with rfkill writes starts with: power on was requested, the first probe failed
    with the text of an empty index list, and the radio that was read can be written; it is
    not blocked if a block was written. -/
structure Recovers (interface : String) (powered : Bool) (log : Log powerSig) : Prop where
  powered : powered = true
  start : ∃ radio left rest, log = ⟨.readInfo interface, (none, "index-list:0")⟩ ::
    ⟨.readRfkill .bluetooth, (some radio, left)⟩ :: rest ∧ radio.writable = true ∧
    radio.hardBlocked = false ∧ (false ∈ rfkillWrites log → radio.unblocked = true)

/-- The rfkill writes of a request: nothing, an unblock, a block that fails the request at
    once, or one edge. -/
structure BoundedRecovery (interface : String) (powered : Bool) (log : Log powerSig) (ok : Bool) :
    Prop where
  writes : rfkillWrites log = [] ∨ rfkillWrites log = [true] ∨
    (rfkillWrites log = [false] ∧ ok = false ∧
      ∃ before text, log = before ++ [⟨.writeRfkill .bluetooth false, (false, text)⟩]) ∨
    rfkillWrites log = [false, true]
  recovers : rfkillWrites log ≠ [] → Recovers interface powered log
  probes : log.countP isProbe ≤ 51

/-- A request without rfkill writes. -/
private theorem BoundedRecovery.of_nil {interface : String} {powered : Bool}
    {log : Log powerSig} {ok : Bool}
    (hwrites : rfkillWrites log = []) (hcount : log.countP isProbe ≤ 51) :
    BoundedRecovery interface powered log ok :=
  ⟨.inl hwrites, fun hne => absurd hwrites hne, hcount⟩

/-- A request whose controller is registered. -/
private theorem registered_spec {interface : String} {powered : Bool} {text text' : String}
    {log : Log powerSig} {ok : Bool} (h : Does (do
      match ← oracles.writeManagement interface powered with
      | false => return false
      | true =>
        if powered then awaitPowered oracles interface 10
        else
          match ← oracles.readInfo interface with
          | some info => return !info.powered
          | none => oracles.indexMissing) text log ok text') :
    rfkillWrites log = [] ∧ log.countP isProbe ≤ 50 := by
  obtain ⟨written, left, log', rfl, hwritten⟩ := does_consult_bind.mp h
  rw [rfkillWrites_cons, List.countP_cons_of_neg (by simp [isProbe])]
  cases written with
  | false =>
    obtain ⟨rfl, -, -⟩ := does_pure.mp hwritten
    exact ⟨rfl, Nat.zero_le 50⟩
  | true =>
    dsimp only at hwritten
    split at hwritten
    · obtain ⟨hwrites, hcount⟩ := awaitPowered_spec hwritten
      exact ⟨by rw [hwrites]; rfl, hcount.trans (by decide)⟩
    · obtain ⟨r, left', log'', rfl, hend⟩ := does_consult_bind.mp hwritten
      rw [rfkillWrites_cons, List.countP_cons_of_pos rfl]
      cases r with
      | some info =>
        obtain ⟨rfl, -, -⟩ := does_pure.mp hend
        exact ⟨rfl, by decide⟩
      | none =>
        obtain ⟨rfl, -, -⟩ :=
          does_pure.mp (show Does (pure _ : PowerM Bool) left' log'' ok text' from hend)
        exact ⟨rfl, by decide⟩

/-- The rfkill recovery is one bounded edge, whatever the five functions do. -/
theorem recovery_bounded {interface : String} {powered : Bool} {text text' : String}
    {log : Log powerSig} {ok : Bool}
    (h : Does (requestBluetoothPowerWith oracles interface powered) text log ok text') :
    BoundedRecovery interface powered log ok := by
  obtain ⟨r, left, log', rfl, hrest⟩ := does_consult_bind.mp h
  cases r with
  | some info =>
    -- The controller is there: no radio is touched.
    dsimp only at hrest
    split at hrest
    · obtain ⟨rfl, -, -⟩ := does_pure.mp hrest
      exact .of_nil rfl (show 1 ≤ 51 by decide)
    · obtain ⟨hwrites, hcount⟩ := registered_spec hrest
      refine .of_nil (by rw [rfkillWrites_cons, hwrites]; rfl) ?_
      rw [List.countP_cons_of_pos rfl]
      exact Nat.succ_le_succ hcount
  | none =>
    replace hrest := does_missing_bind.mp hrest
    cases hmissing : left == "index-list:0" with
    | false =>
      -- Another failure than an empty list: one probe and no recovery.
      rw [hmissing] at hrest
      obtain ⟨rfl, -, -⟩ := does_pure.mp hrest
      exact .of_nil rfl (show 1 ≤ 51 by decide)
    | true =>
      rw [hmissing] at hrest
      dsimp only at hrest
      split at hrest
      · obtain ⟨rfl, -, -⟩ := does_pure.mp hrest
        exact .of_nil rfl (show 1 ≤ 51 by decide)
      · next hpowered =>
        obtain ⟨found, left', rest, rfl, hcount, hedge⟩ := rfkillRecovery_spec hrest
        obtain rfl := beq_iff_eq.mp hmissing
        -- The first two events are reads, so the writes are those of the edge.
        have hwrites : rfkillWrites (⟨.readInfo interface, (none, "index-list:0")⟩ ::
            ⟨.readRfkill .bluetooth, (found, left')⟩ :: rest) = rfkillWrites rest := by
          rw [rfkillWrites_cons, rfkillWrites_cons]
          rfl
        have hprobes : (⟨.readInfo interface, (none, "index-list:0")⟩ ::
            ⟨.readRfkill .bluetooth, (found, left')⟩ :: rest : Log powerSig).countP
              isProbe ≤ 51 := by
          rw [List.countP_cons_of_pos rfl, List.countP_cons_of_neg (by simp [isProbe])]
          exact Nat.succ_le_succ hcount
        rcases hedge with hnil | ⟨radio, rfl, hwritable, hhard, hedge⟩
        · exact .of_nil (hwrites.trans hnil) hprobes
        · have hpow : powered = true := by
            cases powered with
            | true => rfl
            | false => exact absurd rfl hpowered
          have hstart (hblock : false ∈ rfkillWrites rest → radio.unblocked = true) :
              Recovers interface powered (⟨.readInfo interface, (none, "index-list:0")⟩ ::
                ⟨.readRfkill .bluetooth, (some radio, left')⟩ :: rest) :=
            ⟨hpow, radio, left', rest, rfl, hwritable, hhard, hwrites ▸ hblock⟩
          cases hedge with
          | none hnil => exact .of_nil (hwrites.trans hnil) hprobes
          | unblock hone =>
            refine ⟨.inr (.inl (hwrites.trans hone)), fun _ => hstart fun hmem => ?_, hprobes⟩
            rw [hone] at hmem
            exact nomatch List.mem_singleton.mp hmem
          | failedBlock hone hradio hok hlast =>
            obtain ⟨before, left'', rfl⟩ := hlast
            exact ⟨.inr (.inr (.inl ⟨hwrites.trans hone, hok, _ :: _ :: before, left'', rfl⟩)),
              fun _ => hstart fun _ => hradio, hprobes⟩
          | edge htwo hradio =>
            exact ⟨.inr (.inr (.inr (hwrites.trans htwo))), fun _ => hstart fun _ =>
              hradio, hprobes⟩

namespace Sample

/-- Functions that succeed, with the controller that a probe finds. -/
def succeeds (info : Option BluetoothInfo) : (o : PowerOp) → o.Value × String
  | .readInfo _ => (info, "index-list:0")
  | .writeManagement _ _ => (true, "none")
  | .readRfkill _ => (some ⟨"rfkill0", false, true, true⟩, "index-list:0")
  | .writeRfkill _ _ => (true, "index-list:0")
  | .waitMs _ => ((), "index-list:0")

/-- The answers of a recovery after which the first probe finds the controller powered. -/
def recovery : List ((o : PowerOp) → o.Value × String) :=
  List.replicate 5 (succeeds none) ++ [succeeds (some ⟨0, true, false, "", []⟩)]

end Sample

/-- A recovery with a block and an unblock. -/
theorem recovery_bounded_edge : ∃ log text,
    Does (requestBluetoothPowerWith oracles "hci0" true) "not-probed" log true text ∧
      rfkillWrites log = [false, true] ∧ BoundedRecovery "hci0" true log true := by
  have heval :
      ((requestBluetoothPowerWith oracles "hci0" true "not-probed").feed Sample.recovery).any
      (fun x => x.1.1 && rfkillWrites x.2 == [false, true]) = true := by
    decide
  obtain ⟨x, hx, htest⟩ := (Option.any_eq_true _ _).mp heval
  rw [Bool.and_eq_true, beq_iff_eq] at htest
  have hdoes := Does.of_feed hx
  rw [htest.1] at hdoes
  exact ⟨x.2, x.1.2, hdoes, htest.2, recovery_bounded hdoes⟩

end MsysHal.Native

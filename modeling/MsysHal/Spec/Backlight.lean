import MsysHal.Native.Backlight
import MsysHal.Python.Backlight
import MsysHal.Spec.Decimal

/-!
# Brightness percentages

Both clients write `(percent * maximum + 50) / 100`, which is at most half a percent off
while the maximum is 100 or more, and so reading it gives the percentage back. What they
report for any other brightness is the same quotient, rounded half to even by the one
and half up by the other.

## Key results

- `percent_stable`: a percentage that was written is reported
- `percent_agrees`: when both report the same percentage
-/

namespace MsysHal

open Interleave (Log Path Issues Does Prog Proc does_ask_bind does_bind does_pure does_get_bind
  does_modify_bind)
open Python (Value roundHalfEven)

/-! ## Arithmetic -/

namespace Backlight

variable {p m : ℤ}

theorem brightnessOf_nonneg (hp : 0 ≤ p) (hm : 0 ≤ m) : 0 ≤ brightnessOf p m := by
  have hprod : 0 ≤ p * m := mul_nonneg hp hm
  rw [brightnessOf]
  omega

theorem brightnessOf_le (hp : p ≤ 100) (hm : 0 ≤ m) : brightnessOf p m ≤ m := by
  have hprod : p * m ≤ 100 * m := mul_le_mul_of_nonneg_right hp hm
  rw [brightnessOf]
  omega

theorem brightnessOf_mono {p' : ℤ} (hm : 0 ≤ m) (h : p ≤ p') :
    brightnessOf p m ≤ brightnessOf p' m := by
  have hprod : p * m ≤ p' * m := mul_le_mul_of_nonneg_right h hm
  exact Int.ediv_le_ediv (by decide) (by omega)

/-- What is written is off by less than half a percent. At a maximum of 100 it is exact. -/
theorem brightnessOf_near (hm : 100 ≤ m) : 2 * |brightnessOf p m * 100 - p * m| < m := by
  rw [brightnessOf]
  rcases hm.eq_or_lt with rfl | hlt
  · have hexact : (p * 100 + 50) / 100 = p := by omega
    rw [hexact, sub_self, abs_zero]
    decide
  · have hoff : |(p * m + 50) / 100 * 100 - p * m| ≤ 50 := by
      rw [abs_le]
      omega
    omega

theorem brightnessPercent_brightnessOf (hm : 100 ≤ m) :
    brightnessPercent (brightnessOf p m) m = p := by
  have hmq : (0 : ℚ) < m := by exact_mod_cast lt_of_lt_of_le (by decide : (0 : ℤ) < 100) hm
  have hnear : 2 * |(brightnessOf p m : ℚ) * 100 - p * m| < m := by
    exact_mod_cast brightnessOf_near (p := p) hm
  apply Python.roundHalfEven_eq
  have hdiff : ((brightnessOf p m * 100 : ℤ) : ℚ) / m - p =
      (brightnessOf p m * 100 - p * m) / m := by
    rw [eq_div_iff hmq.ne', sub_mul, div_mul_cancel₀ _ hmq.ne']
    push_cast
    ring
  rw [hdiff, abs_div, abs_of_pos hmq, div_lt_div_iff₀ hmq two_pos]
  linarith

end Backlight

namespace Native

variable {p m b : ℤ}

theorem int64_of_bounds {n : ℤ} (h : 0 ≤ n) (h' : n < 2 ^ 63) : int64 n = some n :=
  if_pos ⟨by omega, h'⟩

/-- No overflow, and the division of C is that of Python. -/
theorem brightnessOf_eq (hp : 0 ≤ p) (hp' : p ≤ 100) (hm : 0 ≤ m) (hm' : m < 2 ^ 31) :
    brightnessOf p m = some (Backlight.brightnessOf p m) := by
  have hprod : 0 ≤ p * m := mul_nonneg hp hm
  have hprod' : p * m ≤ 100 * m := mul_le_mul_of_nonneg_right hp' hm
  have hdiv : (p * m + 50).tdiv 100 = (p * m + 50) / 100 :=
    Int.tdiv_eq_ediv_of_nonneg (by omega)
  rw [brightnessOf, int64_of_bounds hprod (by omega), Option.bind_eq_bind, Option.bind_some,
    int64_of_bounds (by omega) (by omega), Option.bind_some, hdiv,
    int64_of_bounds (by omega) (by omega)]
  rfl

theorem brightnessPercent_eq (hb : 0 ≤ b) (hbm : b ≤ m) (hm : 1 ≤ m) (hm' : m < 2 ^ 31) :
    brightnessPercent b m = some ((b * 100 + m / 2) / m) := by
  have hhalf : m.tdiv 2 = m / 2 := Int.tdiv_eq_ediv_of_nonneg (by omega)
  have hdiv : (b * 100 + m / 2).tdiv m = (b * 100 + m / 2) / m :=
    Int.tdiv_eq_ediv_of_nonneg (by omega)
  have hle : (b * 100 + m / 2) / m ≤ b * 100 + m / 2 := Int.ediv_le_self m (by omega)
  have hnonneg : 0 ≤ (b * 100 + m / 2) / m := Int.ediv_nonneg (by omega) (by omega)
  rw [brightnessPercent, int64_of_bounds (by omega) (by omega), Option.bind_eq_bind,
    Option.bind_some, hhalf, int64_of_bounds (by omega) (by omega), Option.bind_some, hdiv,
    int64_of_bounds hnonneg (by omega)]

/-- A quotient rounded half up, from quotient and remainder. -/
theorem half_up_div (a : ℤ) (hm : 0 < m) :
    (a + m / 2) / m = if 2 * (a % m) < m then a / m else a / m + 1 := by
  have hr := Int.emod_nonneg a hm.ne'
  have hr' := Int.emod_lt_of_pos a hm
  have hsplit : a + m / 2 = a % m + m / 2 + a / m * m := by
    have := Int.emod_add_ediv_mul a m
    omega
  rw [hsplit, Int.add_mul_ediv_right _ _ hm.ne']
  split
  · rw [Int.ediv_eq_zero_of_lt (by omega) (by omega), zero_add]
  · have hover : a % m + m / 2 = a % m + m / 2 - m + 1 * m := by omega
    rw [hover, Int.add_mul_ediv_right _ _ hm.ne', Int.ediv_eq_zero_of_lt (by omega) (by omega)]
    omega

/-- Rounding half up gives the percentage back too. -/
theorem brightnessPercent_brightnessOf (hp : 0 ≤ p) (hp' : p ≤ 100) (hm : 100 ≤ m)
    (hm' : m < 2 ^ 31) : brightnessPercent (Backlight.brightnessOf p m) m = some p := by
  have hnear := Backlight.brightnessOf_near (p := p) hm
  rw [brightnessPercent_eq (Backlight.brightnessOf_nonneg hp (by omega))
    (Backlight.brightnessOf_le hp' (by omega)) (by omega) hm', Option.some.injEq]
  generalize Backlight.brightnessOf p m * 100 = a at *
  -- the distance of `a` from `p * m`, with the half that is added, is within one maximum
  have hlow : -m < 2 * (a - p * m) := by
    have := neg_abs_le (a - p * m)
    omega
  have hhigh : 2 * (a - p * m) < m := by
    have := le_abs_self (a - p * m)
    omega
  have hsplit : a + m / 2 = a - p * m + m / 2 + p * m := by omega
  rw [hsplit, Int.add_mul_ediv_right _ _ (by omega), Int.ediv_eq_zero_of_lt (by omega) (by omega),
    zero_add]

/-- Half up and half to even differ where the quotient is half way above an even number. -/
theorem brightnessPercent_agrees (hb : 0 ≤ b) (hbm : b ≤ m) (hm : 1 ≤ m) (hm' : m < 2 ^ 31) :
    brightnessPercent b m = some (Backlight.brightnessPercent b m) ↔
      ¬ (2 * (b * 100 % m) = m ∧ b * 100 / m % 2 = 0) := by
  have heven : Backlight.brightnessPercent b m =
      if 2 * (b * 100 % m) < m ∨ 2 * (b * 100 % m) = m ∧ b * 100 / m % 2 = 0 then b * 100 / m
      else b * 100 / m + 1 := Python.roundHalfEven_div (b * 100) (by omega)
  rw [brightnessPercent_eq hb hbm hm hm', Option.some.injEq, half_up_div _ (by omega), heven]
  split_ifs <;> omega

end Native

/-! ## Runs of the Python client -/

namespace Backlight

/-- The request for a percentage. -/
def percentChange (p : ℤ) : List (Value × Value) := [(.str "brightness_percent", .int p)]

/-- Every read of an attribute on the way gives the number. -/
def Reads (file : String) (minimum : ℤ) (n : ℤ) (log : Log backlightSig) : Prop :=
  ∀ name data, (⟨.read name file, data⟩ : (o : BacklightOp) × o.Ret) ∈ log →
    readInt minimum (2 ^ 31 - 1) data = some n

/-- A request for `p` percent writes `v` while the maximum is `m`. -/
def Writes (m p v : ℤ) : Prop :=
  ∃ identifier log result name written, Path (setState identifier (percentChange p)) log result ∧
    Reads "max_brightness" 1 m log ∧ (⟨.write name v, written⟩ : (o : BacklightOp) × o.Ret) ∈ log

/-- A state with the brightness `v` and the maximum `m` reports `q` percent. -/
def Reports (m v q : ℤ) : Prop :=
  ∃ identifier log state, Path (getState identifier) log (.ok state) ∧
  Reads "max_brightness" 1 m log ∧
    Reads "brightness" 0 v log ∧ state.percent = q

/-- A step that writes nothing. -/
def IsRead (o : BacklightOp) : Prop := ∀ name v, o ≠ .write name v

theorem IsRead.entries : IsRead .entries := fun _ _ h => nomatch h

theorem IsRead.read (name file : String) : IsRead (.read name file) := fun _ _ h => nomatch h

theorem IsRead.writable (name : String) : IsRead (.writable name) := fun _ _ h => nomatch h

theorem findEntry_issues (identifier : String) : Issues IsRead (findEntry identifier) := by
  refine (Issues.ofExcept _).bind fun name => (Issues.perform .entries).bind fun items => ?_
  split
  · exact .pure _
  · exact .raise _

theorem readAttribute_issues (name file : String) (minimum maximum : Int) :
    Issues IsRead (readAttribute name file minimum maximum) :=
  (Issues.perform (.read name file)).bind fun _ => .pure _

theorem getState_issues (identifier : String) : Issues IsRead (getState identifier) := by
  refine (findEntry_issues identifier).bind fun name =>
    (readAttribute_issues ..).bind fun maximum =>
    (readAttribute_issues ..).bind fun brightness => ?_
  split
  · exact (readAttribute_issues ..).bind fun _ => (Issues.perform (.writable name)).bind fun _ =>
      .pure _
  · exact .raise _

variable {α : Type} {log : Log backlightSig} {identifier : String}

theorem readAttribute_path {name file : String} {minimum maximum : Int}
    {f : Option Int → BacklightProg α}
    {result : Except PyError α}
    (h : Path (readAttribute name file minimum maximum >>= f) log result) :
    ∃ data log', log = ⟨.read name file, data⟩ :: log' ∧
      Path (f (readInt minimum maximum data)) log' result := by
  have h : Path (op (.read name file) >>= fun data => f (readInt minimum maximum data))
      log result := h
  exact Path.of_perform_bind h

theorem requestedBrightness_percent {m p requested : ℤ}
    (h : requestedBrightness m (percentChange p) = .ok requested) :
    0 ≤ p ∧ p ≤ 100 ∧ requested = brightnessOf p m := by
  have hnone : Value.lookup "brightness" (percentChange p) = none := rfl
  have hsome : Value.lookup "brightness_percent" (percentChange p) = some (.int p) := rfl
  rw [requestedBrightness, hnone, hsome] at h
  obtain ⟨percent, hpercent, hok⟩ := Except.bind_eq_ok_iff.mp h
  rw [Option.getD_some, integer] at hpercent
  split at hpercent
  · exact nomatch hpercent
  · next hbounds =>
    rw [Bool.or_eq_true, decide_eq_true_eq, decide_eq_true_eq, not_or, not_lt, not_lt] at hbounds
    cases hpercent
    exact ⟨hbounds.1, hbounds.2, (Except.ok.inj hok).symm⟩

theorem safeWrite_path {name : String} {value : ℤ} {result : Except PyError Unit}
    (h : Path (safeWrite name value) log result) : ∃ written, log =
      [⟨.write name value, written⟩] := by
  obtain ⟨written, log', rfl, hrest⟩ := Path.of_perform_bind h
  cases written <;> cases hrest <;> exact ⟨_, rfl⟩

/-- What is written is the brightness of the percentage. -/
theorem setState_write {m p v : ℤ} {result : Except PyError BacklightState} {name : String}
    {written : Written} (h : Path (setState identifier (percentChange p)) log result)
    (hmax : Reads "max_brightness" 1 m log)
    (hwrite : (⟨.write name v, written⟩ : (o : BacklightOp) × o.Ret) ∈ log) :
    0 ≤ p ∧ p ≤ 100 ∧ v = brightnessOf p m := by
  have hread {β : Type} {q : BacklightProg β} {log' : Log backlightSig} {x : Except PyError β}
      (hq : Issues IsRead q) (hpath : Path q log' x) :
      (⟨.write name v, written⟩ : (o : BacklightOp) × o.Ret) ∉ log' :=
    fun hmem => Path.issues hq hpath _ hmem name v rfl
  have hkeys : (decide ((percentChange p).length ≠ 1) ||
      !Network.keysWithin ["brightness", "brightness_percent"] (percentChange p)) = false := rfl
  rw [setState, hkeys, if_neg Bool.false_ne_true] at h
  rcases Path.of_bind h with ⟨e, -, hfind⟩ | ⟨found, log₁, log₂, rfl, hfind, hmaximum⟩
  · exact absurd hwrite (hread (findEntry_issues identifier) hfind)
  obtain ⟨data, log₃, rfl, hgo⟩ := readAttribute_path hmaximum
  rw [hmax found data (by simp)] at hgo
  obtain ⟨writable, log₄, rfl, hchange⟩ := Path.of_perform_bind hgo
  -- Only the write of this call is left, since all else are reads.
  replace hwrite : (⟨.write name v, written⟩ : (o : BacklightOp) × o.Ret) ∈ log₄ := by
    simpa [hread (findEntry_issues identifier) hfind] using hwrite
  cases writable with
  | false =>
    cases hchange
    exact nomatch hwrite
  | true =>
    rw [if_pos rfl] at hchange
    rcases Path.of_bind hchange with ⟨e, -, hcheck⟩ | ⟨requested, log₅, log₆, rfl, hcheck, hrest⟩
    · obtain ⟨rfl, -⟩ := Path.of_ofExcept hcheck
      exact nomatch hwrite
    obtain ⟨rfl, hok⟩ := Path.of_ofExcept hcheck
    obtain ⟨hp, hp', rfl⟩ := requestedBrightness_percent (Except.mapError_eq_ok_iff.mp hok.symm)
    -- What follows the write reads it back.
    have hverify : Issues IsRead (readAttribute found "brightness" 0 m >>= fun observed =>
        if observed ≠ some (brightnessOf p m) then
          fail (.provider "backlight write could not be verified"
          [("id", .str identifier), ("requested", .int (brightnessOf p m)),
            ("observed", optionalInt observed)]) else getState identifier) := by
      refine (readAttribute_issues ..).bind fun observed => ?_
      split
      · exact .raise _
      · exact getState_issues identifier
    refine ⟨hp, hp', ?_⟩
    rcases Path.of_bind hrest with ⟨e, -, hsafe⟩ | ⟨u, log₇, log₈, rfl, hsafe, hlast⟩
    · obtain ⟨w, rfl⟩ := safeWrite_path hsafe
      have hmem : (name = found ∧ v = brightnessOf p m) ∧ written = w := by simpa using hwrite
      exact hmem.1.2
    · obtain ⟨w, rfl⟩ := safeWrite_path hsafe
      have hnone := hread hverify hlast
      have hmem : (name = found ∧ v = brightnessOf p m) ∧ written = w := by
        simpa [hnone] using hwrite
      exact hmem.1.2

theorem getState_percent {m v : ℤ} {state : BacklightState}
    (h : Path (getState identifier) log (.ok state))
    (hmax : Reads "max_brightness" 1 m log) (hread : Reads "brightness" 0 v log) :
    state.percent = brightnessPercent v m := by
  rcases Path.of_bind h with ⟨e, heq, -⟩ | ⟨found, log₁, log₂, rfl, -, hgo⟩
  · exact nomatch heq
  obtain ⟨data, log₃, rfl, hbrightness⟩ := readAttribute_path hgo
  obtain ⟨data', log₄, rfl, hvalues⟩ := readAttribute_path hbrightness
  rw [hmax found data (by simp), hread found data' (by simp)] at hvalues
  obtain ⟨actual, log₅, rfl, hwritable⟩ := readAttribute_path hvalues
  obtain ⟨writable, log₆, rfl, hreturn⟩ := Path.of_perform_bind hwritable
  obtain ⟨-, heq⟩ := Path.of_pure hreturn
  cases heq
  rfl

/-- A panel with a maximum that shows a brightness, whatever is written. -/
def panel (m b : Nat) : (o : BacklightOp) → o.Ret
  | .entries => some [⟨"panel0".toList.map Char.toNat, some true, fun _ => none, fun _ => false⟩]
  | .read _ file => some (decimalFile (if file = "max_brightness" then m else b))
  | .writable _ => true
  | .write _ _ => .complete

variable {m b : Nat}

theorem panel_maximum (hm : 1 ≤ m) (hm' : m < 2 ^ 31) (name : String) :
    readInt 1 (2 ^ 31 - 1) (panel m b (.read name "max_brightness")) = some (m : ℤ) := by
  rw [panel, if_pos rfl]
  exact readInt_decimalFile (by omega) (by omega) (by omega)

theorem panel_brightness (hb : b < 2 ^ 31) (name : String) :
    readInt 0 (2 ^ 31 - 1) (panel m b (.read name "brightness")) = some (b : ℤ) := by
  rw [panel, if_neg (by decide)]
  exact readInt_decimalFile (by omega) (by omega) (by omega)

theorem findEntry_panel : (findEntry "backlight:panel0").follow (panel m b) =
    (.ok "panel0", [⟨.entries, panel m b .entries⟩]) := rfl

theorem follow_readAttribute {α : Type} (answer : (o : BacklightOp) → o.Ret) (name file : String)
    (minimum maximum : Int) (f : Option Int → BacklightProg α) :
    (readAttribute name file minimum maximum >>= f).follow answer =
      (((f (readInt minimum maximum (answer (.read name file)))).follow answer).1,
        ⟨.read name file, answer (.read name file)⟩ ::
          ((f (readInt minimum maximum (answer (.read name file)))).follow answer).2) := rfl

theorem requestedBrightness_ok {p : ℤ} (hp : 0 ≤ p) (hp' : p ≤ 100) (m : ℤ) :
    requestedBrightness m (percentChange p) = .ok (brightnessOf p m) := by
  have hbounds : (decide (p < 0) || decide (p > 100)) = false := by
    rw [Bool.or_eq_false_iff, decide_eq_false_iff_not, decide_eq_false_iff_not]
    omega
  have hinteger : integer (.int p) "changes.brightness_percent" 0 100 = .ok p := by
    rw [integer, hbounds, if_neg Bool.false_ne_true]
  change (integer (.int p) "changes.brightness_percent" 0 100 >>= fun percent =>
    pure (brightnessOf percent m)) = _
  rw [hinteger]
  rfl

/-- On a panel the write is made. -/
theorem writes_panel {p : ℤ} (hp : 0 ≤ p) (hp' : p ≤ 100) (hm : 1 ≤ m) (hm' : m < 2 ^ 31) :
    Writes m p (brightnessOf p m) := by
  refine ⟨"backlight:panel0", _, _, "panel0", .complete, Path.of_follow (panel m 0) _,
    fun name data hmem => ?_, ?_⟩
  · rw [show data = panel m 0 (.read name "max_brightness") from Prog.follow_answers _ _ _ hmem]
    exact panel_maximum hm hm' name
  · have hkeys : (decide ((percentChange p).length ≠ 1) ||
        !Network.keysWithin ["brightness", "brightness_percent"] (percentChange p)) = false := rfl
    rw [setState, hkeys, if_neg Bool.false_ne_true, Prog.follow_bind findEntry_panel,
      follow_readAttribute, panel_maximum hm hm']
    dsimp only
    rw [requestedBrightness_ok hp hp']
    exact List.mem_cons_of_mem _
      (List.mem_cons_of_mem _ (List.mem_cons_of_mem _ List.mem_cons_self))

/-- A panel is reported. -/
theorem reports_panel (hm : 1 ≤ m) (hm' : m < 2 ^ 31) (hb : b < 2 ^ 31) :
    Reports m b (brightnessPercent b m) := by
  have hfollow : ((getState "backlight:panel0").follow (panel m b)).1 =
      .ok ⟨"backlight:panel0", b, m, readInt 0 m (some (decimalFile b)), true⟩ := by
    rw [getState, Prog.follow_bind findEntry_panel, follow_readAttribute, panel_maximum hm hm',
      follow_readAttribute, panel_brightness hb]
    rfl
  have hpath := Path.of_follow (panel m b) (getState "backlight:panel0")
  rw [hfollow] at hpath
  refine ⟨_, _, _, hpath, fun name data hmem => ?_, fun name data hmem => ?_, rfl⟩
  · rw [show data = panel m b (.read name "max_brightness") from Prog.follow_answers _ _ _ hmem]
    exact panel_maximum hm hm' name
  · rw [show data = panel m b (.read name "brightness") from Prog.follow_answers _ _ _ hmem]
    exact panel_brightness hb name

end Backlight

/-! ## Runs of the native client -/

namespace Native

/-- The request for a percentage. -/
def percentChange (token : JsonToken) : List (Bytes × JsonToken) :=
  [(ascii "brightness_percent", token)]

/-- Every scan on the way finds the backlight with the maximum. -/
def Scans (name : String) (m : ℤ) (log : Log backlightSig) : Prop :=
  ∀ devices, (⟨.scan, devices⟩ : (o : BacklightOp) × o.Ret) ∈ log →
    ∀ device, findBacklight devices name = some device → device.maximum = m

/-- A request for `p` percent writes `v` while the maximum is `m`. -/
def BrightnessWrites (m p v : ℤ) : Prop :=
  ∃ name token s log result s' target ok, tokenI64 token = some p ∧
    Does (backlightSetState name (percentChange token)) s log result s' ∧ Scans name m log ∧
    (⟨.write target v, ok⟩ : (o : BacklightOp) × o.Ret) ∈ log

/-- A state with the brightness `v` and the maximum `m` reports `q` percent. -/
def BrightnessReports (m v q : ℤ) : Prop :=
  ∃ name s log state values s', Does (backlightGetState name) s log (.ok state) s' ∧
  Scans name m log ∧
    (∀ target data, (⟨.read target, data⟩ : (o : BacklightOp) × o.Ret) ∈ log →
      fileI64 0 m data = some v) ∧ state.values = some values ∧ values.percent = q

variable {m p v : ℤ} {name : String} {s s' : UInt64} {log : Log backlightSig}

theorem fileI64_bounds {minimum maximum n : ℤ} {data : Option Bytes}
    (h : fileI64 minimum maximum data = some n) : minimum ≤ n ∧ n ≤ maximum := by
  obtain ⟨text, -, hparsed⟩ := Option.bind_eq_some_iff.mp h
  have hbounds := (Option.filter_eq_some_iff.mp hparsed).2
  rwa [Bool.and_eq_true, decide_eq_true_eq, decide_eq_true_eq] at hbounds

/-- The state of a backlight whose attribute is read as the number. -/
def shown (device : BacklightDevice) (revision : UInt64) : Option ℤ → Except Failure BacklightState
  | none => .ok ⟨revision, device.name, none, device.writable⟩
  | some b => (defined (brightnessPercent b device.maximum)).map fun percent =>
      ⟨revision, device.name, some ⟨b, percent, device.maximum⟩, device.writable⟩

/-- The state of a backlight is one read. -/
theorem appendBacklightState_does {device : BacklightDevice}
    {result : Except Failure BacklightState}
    (h : Does (appendBacklightState device) s log result s') :
    ∃ data, log = [⟨.read device.name, data⟩] ∧ result =
      shown device s (fileI64 0 device.maximum data) := by
  obtain ⟨values, s₁, log₁, log₂, rfl, hvalues, hreturn⟩ := does_bind.mp (does_get_bind.mp h)
  obtain ⟨rfl, rfl, -⟩ := does_pure.mp hreturn
  obtain ⟨read, s₂, log₃, log₄, rfl, hread, hgo⟩ := does_bind.mp hvalues
  obtain ⟨data, log₅, rfl, hpure⟩ := does_ask_bind.mp hread
  obtain ⟨rfl, rfl, -⟩ := does_pure.mp hpure
  refine ⟨data, ?_⟩
  split at hgo
  · next hnone =>
    obtain ⟨rfl, rfl, -⟩ := does_pure.mp hgo
    rw [hnone]
    exact ⟨rfl, rfl⟩
  · next b hsome =>
    obtain ⟨rfl, rfl, -⟩ := does_pure.mp hgo
    rw [hsome, shown]
    refine ⟨rfl, ?_⟩
    cases defined (brightnessPercent b device.maximum) <;> rfl

theorem shown_defined (hm : 1 ≤ m) (hm' : m < 2 ^ 31) {device : BacklightDevice}
    (hdevice : device.maximum = m) (revision : UInt64) (data : Option Bytes) :
    ∃ state, shown device revision (fileI64 0 device.maximum data) = .ok state := by
  rw [hdevice]
  cases hread : fileI64 0 m data with
  | none => exact ⟨_, rfl⟩
  | some b =>
    obtain ⟨hb, hbm⟩ := fileI64_bounds hread
    rw [shown, hdevice, brightnessPercent_eq hb hbm hm hm']
    exact ⟨_, rfl⟩

theorem backlightGetState_does {result : Except Failure BacklightState}
    (h : Does (backlightGetState name) s log result s') :
    ∃ devices log', log = ⟨.scan, devices⟩ :: log' ∧
      (findBacklight devices name = none ∧ result = .error (.refused .unavailable) ∨
        ∃ device data, findBacklight devices name = some device ∧ log' =
          [⟨.read device.name, data⟩] ∧
          result = shown device s (fileI64 0 device.maximum data)) := by
  obtain ⟨devices, log', rfl, hgo⟩ := does_ask_bind.mp h
  refine ⟨devices, log', rfl, ?_⟩
  split at hgo
  · next hnone =>
    obtain ⟨-, rfl, -⟩ := does_pure.mp hgo
    exact .inl ⟨hnone, rfl⟩
  · next device hsome =>
    obtain ⟨data, hlog, hresult⟩ := appendBacklightState_does hgo
    exact .inr ⟨device, data, hsome, hlog, hresult⟩

theorem backlightGetState_defined (hm : 1 ≤ m) (hm' : m < 2 ^ 31)
    {result : Except Failure BacklightState}
    (h : Does (backlightGetState name) s log result s') (hscans : Scans name m log) :
    result ≠ .error .overflow := by
  obtain ⟨devices, log', rfl, ⟨-, rfl⟩ | ⟨device, data, hfind, -, rfl⟩⟩ := backlightGetState_does h
  · exact nofun
  · obtain ⟨state, hok⟩ :=
      shown_defined hm hm' (hscans devices List.mem_cons_self device hfind) s data
    rw [hok]
    exact nofun

theorem boundedToken_ok {token : JsonToken} {maximum n : ℤ}
    (h : boundedToken token maximum = .ok n) : tokenI64 token = some n ∧ 0 ≤ n ∧ n ≤ maximum := by
  rw [boundedToken] at h
  split at h
  · exact nomatch h
  · next k hsome =>
    obtain rfl := Except.ok.inj h
    obtain ⟨htoken, hbounds⟩ := Option.filter_eq_some_iff.mp hsome
    rw [Bool.and_eq_true, decide_eq_true_eq, decide_eq_true_eq] at hbounds
    exact ⟨htoken, hbounds⟩

theorem boundedToken_ne_overflow (token : JsonToken) (maximum : ℤ) :
    boundedToken token maximum ≠ .error .overflow := by
  rw [boundedToken]
  split <;> exact nofun

theorem requestedBrightness_defined (hm : 0 ≤ m) (hm' : m < 2 ^ 31)
    (changes : List (Bytes × JsonToken)) : requestedBrightness m changes ≠ .error .overflow := by
  rw [requestedBrightness]
  split
  · exact nofun
  · split
    · exact boundedToken_ne_overflow _ _
    · next percent _ _ =>
      intro h
      rcases Except.bind_eq_error_iff.mp h with hbounded | ⟨n, hbounded, hdefined⟩
      · exact boundedToken_ne_overflow _ _ hbounded
      · obtain ⟨-, hn, hn'⟩ := boundedToken_ok hbounded
        rw [brightnessOf_eq hn hn' hm hm'] at hdefined
        exact nomatch hdefined
    · exact nofun

theorem requestedBrightness_percentChange (m : ℤ) (token : JsonToken) :
    requestedBrightness m (percentChange token) = (boundedToken token 100 >>= fun percent =>
      defined (brightnessOf percent m)) := by
  have hvalid :
      objectValidateFields (percentChange token) ["brightness", "brightness_percent"] = true := by
    rw [objectValidateFields, percentChange]
    simp only [List.all_cons, List.all_nil, List.map_cons, List.map_nil, List.nodup_singleton,
      decide_true, Bool.and_true]
    decide
  have hnone : objectField (percentChange token) "brightness" = none := rfl
  have hsome : objectField (percentChange token) "brightness_percent" = some token := rfl
  rw [requestedBrightness, hvalid, hnone, hsome]
  rfl

theorem requestedBrightness_percent (hm : 0 ≤ m) (hm' : m < 2 ^ 31) {token : JsonToken}
    {requested : ℤ} (h : requestedBrightness m (percentChange token) = .ok requested) :
    ∃ p, tokenI64 token = some p ∧ 0 ≤ p ∧ p ≤ 100 ∧ requested = Backlight.brightnessOf p m := by
  rw [requestedBrightness_percentChange] at h
  obtain ⟨p, hbounded, hdefined⟩ := Except.bind_eq_ok_iff.mp h
  obtain ⟨htoken, hp, hp'⟩ := boundedToken_ok hbounded
  rw [brightnessOf_eq hp hp' hm hm'] at hdefined
  exact ⟨p, htoken, hp, hp', (Except.ok.inj hdefined).symm⟩

theorem writeBrightness_does {target : String} {requested : ℤ} {ok : Bool}
    (h : Does (writeBrightness target requested) s log ok s') :
    ∃ written rest, log = ⟨.write target requested, written⟩ :: rest ∧
      ∀ x ∈ rest, ∃ data, x = ⟨.read target, data⟩ := by
  obtain ⟨written, rest, rfl, hgo⟩ := does_ask_bind.mp h
  refine ⟨written, rest, rfl, ?_⟩
  split at hgo
  · obtain ⟨observed, s₁, log₁, log₂, rfl, hread, hreturn⟩ := does_bind.mp hgo
    obtain ⟨rfl, -, -⟩ := does_pure.mp hreturn
    obtain ⟨data, log₃, rfl, hpure⟩ := does_ask_bind.mp hread
    obtain ⟨rfl, -, -⟩ := does_pure.mp hpure
    exact fun x hx => ⟨data, by simpa using hx⟩
  · obtain ⟨rfl, -, -⟩ := does_pure.mp hgo
    exact fun x hx => nomatch hx

theorem backlightChanged_does {result : Except Failure BacklightState}
    (h : Does (backlightChanged name) s log result s') : ∃ devices log', log =
      ⟨.scan, devices⟩ :: log' ∧ (∀ x ∈ log', ∃ target data, x = ⟨.read target, data⟩) ∧
      (result = .error (.refused .internal) ∨ ∃ device data, findBacklight devices name =
        some device ∧ result = shown device (s + 1) (fileI64 0 device.maximum data)) := by
  obtain ⟨devices, log', rfl, hgo⟩ := does_ask_bind.mp (does_modify_bind.mp h)
  refine ⟨devices, log', rfl, ?_⟩
  split at hgo
  · obtain ⟨rfl, rfl, -⟩ := does_pure.mp hgo
    exact ⟨nofun, .inl rfl⟩
  · next device hsome =>
    obtain ⟨data, rfl, hresult⟩ := appendBacklightState_does hgo
    exact ⟨fun x hx => ⟨_, data, by simpa using hx⟩, .inr ⟨device, data, hsome, hresult⟩⟩

/-- A request never overflows, and what it writes is what was asked for. -/
theorem backlightSetState_does (hm : 1 ≤ m) (hm' : m < 2 ^ 31) {changes : List (Bytes × JsonToken)}
    {result : Except Failure BacklightState}
    (h : Does (backlightSetState name changes) s log result s')
    (hscans : Scans name m log) : result ≠ .error .overflow ∧ ∀ target v ok,
      (⟨.write target v, ok⟩ : (o : BacklightOp) × o.Ret) ∈ log →
        requestedBrightness m changes = .ok v := by
  rw [backlightSetState] at h
  -- The checks before the write end the request without one.
  split at h
  · obtain ⟨rfl, rfl, -⟩ := does_pure.mp h
    exact ⟨nofun, fun _ _ _ hmem => nomatch hmem⟩
  obtain ⟨devices, log₁, rfl, hgo⟩ := does_ask_bind.mp h
  split at hgo
  · obtain ⟨rfl, rfl, -⟩ := does_pure.mp hgo
    exact ⟨nofun, fun _ _ _ hmem => by simp at hmem⟩
  next device hfind =>
  have hdevice := hscans devices List.mem_cons_self device hfind
  split at hgo
  · obtain ⟨rfl, rfl, -⟩ := does_pure.mp hgo
    exact ⟨nofun, fun _ _ _ hmem => by simp at hmem⟩
  rw [hdevice] at hgo
  split at hgo
  · next failure hfailure =>
    obtain ⟨rfl, rfl, -⟩ := does_pure.mp hgo
    refine ⟨fun heq => ?_, fun _ _ _ hmem => by simp at hmem⟩
    rw [Except.error.injEq] at heq
    exact requestedBrightness_defined (by omega) hm' changes (heq ▸ hfailure)
  next requested hrequested =>
  obtain ⟨ok, s₁, log₂, log₃, rfl, hwrite, hrest⟩ := does_bind.mp hgo
  obtain ⟨written, reads, rfl, hreads⟩ := writeBrightness_does hwrite
  -- after the write there are only reads, and perhaps a scan before the last one
  have hlast : result ≠ .error .overflow ∧ ∀ target v ok,
      (⟨.write target v, ok⟩ : (o : BacklightOp) × o.Ret) ∉ log₃ := by
    split at hrest
    · obtain ⟨devices', log₄, rfl, hlog, hresult⟩ := backlightChanged_does hrest
      refine ⟨?_, fun target v ok hmem => ?_⟩
      · rcases hresult with rfl | ⟨device', data, hfind', rfl⟩
        · exact nofun
        · have hdevice' := hscans devices' (by simp) device' hfind'
          obtain ⟨state, hok⟩ := shown_defined hm hm' hdevice' (s₁ + 1) data
          rw [hok]
          exact nofun
      · rcases List.mem_cons.mp hmem with heq | hmem
        · exact nomatch heq
        · obtain ⟨target', data, heq⟩ := hlog _ hmem
          exact nomatch heq
    · obtain ⟨rfl, rfl, -⟩ := does_pure.mp hrest
      exact ⟨nofun, fun _ _ _ hmem => nomatch hmem⟩
  refine ⟨hlast.1, fun target v ok hmem => ?_⟩
  have hnot : (⟨.write target v, ok⟩ : (o : BacklightOp) × o.Ret) ∉ reads := by
    intro hread
    obtain ⟨data, heq⟩ := hreads _ hread
    exact nomatch heq
  have heq : (target = device.name ∧ v = requested) ∧ ok = written := by
    simpa [hnot, hlast.2] using hmem
  rw [heq.1.2]
  exact hrequested

/-- A backlight that shows a brightness, whatever is written. -/
def panel (m b : Nat) : (o : BacklightOp) → o.Ret
  | .scan => [⟨"panel0", m, true⟩]
  | .read _ => some (decimalFile b).data.toList
  | .write _ _ => true

theorem findBacklight_panel (m b : Nat) :
    findBacklight (panel m b .scan) "panel0" = some ⟨"panel0", m, true⟩ := rfl

section Panel

variable {m b : Nat}

theorem panel_scans (h : ∀ x ∈ log, x.2 = panel m b x.1) : Scans "panel0" m log := by
  intro devices hmem device hfind
  rw [show devices = panel m b .scan from h _ hmem, findBacklight_panel, Option.some.injEq] at hfind
  exact hfind ▸ rfl

theorem panel_reads (hb : b ≤ m) (hm : m < 2 ^ 31) (h : ∀ x ∈ log, x.2 = panel m b x.1)
    (target : String)
    (data : Option Bytes) (hmem : (⟨.read target, data⟩ : (o : BacklightOp) × o.Ret) ∈ log) :
    fileI64 0 m data = some (b : ℤ) := by
  rw [show data = panel m b (.read target) from h _ hmem]
  exact fileI64_decimalFile (by omega) (by omega) (by omega)

/-- A panel is reported. -/
theorem brightnessReports_panel (hm : m < 2 ^ 31) (hb : b ≤ m) {q : ℤ}
    (hq : brightnessPercent b m = some q) : BrightnessReports m b q := by
  obtain ⟨log, result, s', hdoes, hanswers⟩ :=
    Interleave.exists_does (panel m b) (backlightGetState "panel0") 0
  have hread := panel_reads hb hm hanswers
  obtain ⟨devices, log', rfl, hcase⟩ := backlightGetState_does hdoes
  have hdevices : devices = panel m b .scan := hanswers _ List.mem_cons_self
  rw [hdevices, findBacklight_panel] at hcase
  rcases hcase with ⟨hnone, -⟩ | ⟨device, data, hfind, rfl, rfl⟩
  · exact nomatch hnone
  obtain rfl := Option.some.inj hfind
  have hshown : shown ⟨"panel0", m, true⟩ 0 (fileI64 0 m data) =
      .ok ⟨0, "panel0", some ⟨b, q, m⟩, true⟩ := by
    rw [hread "panel0" data (by simp), shown, hq]
    rfl
  exact ⟨"panel0", 0, _, _, _, s', hshown ▸ hdoes, panel_scans hanswers, hread, rfl, rfl⟩

end Panel

/-- The write is made where the request is accepted. -/
theorem backlightSetState_writes {changes : List (Bytes × JsonToken)} (hne : changes ≠ [])
    {result : Except Failure BacklightState}
    (h : Does (backlightSetState name changes) s log result s')
    (hlisted : ∀ devices, (⟨.scan, devices⟩ : (o : BacklightOp) × o.Ret) ∈ log →
      ∃ device, findBacklight devices name = some device ∧ device.writable = true ∧
      device.maximum = m)
    {v : ℤ} (hrequested : requestedBrightness m changes = .ok v) :
    ∃ target ok, (⟨.write target v, ok⟩ : (o : BacklightOp) × o.Ret) ∈ log := by
  rw [backlightSetState, List.isEmpty_eq_false_iff.mpr hne, if_neg Bool.false_ne_true] at h
  obtain ⟨devices, log₁, rfl, hgo⟩ := does_ask_bind.mp h
  obtain ⟨device, hfind, hwritable, hdevice⟩ := hlisted devices List.mem_cons_self
  rw [hfind] at hgo
  dsimp only at hgo
  rw [hwritable, hdevice, hrequested] at hgo
  obtain ⟨ok, s₁, log₂, log₃, rfl, hwrite, -⟩ := does_bind.mp hgo
  obtain ⟨written, reads, rfl, -⟩ := writeBrightness_does hwrite
  exact ⟨device.name, written, by simp⟩

/-- A number as a token of a request. -/
def decimalToken (n : Nat) : JsonToken := .primitive ((decimalText n).map asciiByte)

theorem tokenI64_decimalToken {n : Nat} (h : n < 10 ^ 10) :
    tokenI64 (decimalToken n) = some (n : ℤ) := by
  have hlength := length_decimalText_le h
  have hempty : ((decimalText n).map asciiByte).isEmpty = false := by
    rw [List.isEmpty_map]
    exact isEmpty_decimalText
  have hpoint : (decimalText n).any (fun c => c == '.' || c == 'e' || c == 'E') = false := by
    rw [List.any_eq_false]
    intro c hc
    exact forall_ascii (P := fun c => 48 ≤ c.toNat ∧ c.toNat ≤ 57 →
      ¬ (c == '.' || c == 'e' || c == 'E') = true)
      (by decide) (by have := decimalText_ascii c hc; omega) (decimalText_ascii c hc)
  have htoken : decimalToken n = .primitive ((decimalText n).map asciiByte) := rfl
  rw [htoken, tokenI64, chars_decimalText, hempty, List.length_map, decide_eq_false (by omega),
    hpoint, Bool.or_self, Bool.or_self, if_neg Bool.false_ne_true, parseBounded, strtol_decimalText,
    Option.filter_some, decide_eq_true (by omega), decide_eq_true (by omega)]
  rfl

theorem requestedBrightness_decimal {n : Nat} (hm : 0 ≤ m) (hm' : m < 2 ^ 31) (hn : n ≤ 100) :
    requestedBrightness m (percentChange (decimalToken n)) = .ok (Backlight.brightnessOf n m) := by
  have hbounded : boundedToken (decimalToken n) 100 = .ok (n : ℤ) := by
    have hbounds : (decide ((0 : ℤ) ≤ n) && decide ((n : ℤ) ≤ 100)) = true := by
      rw [Bool.and_eq_true, decide_eq_true_eq, decide_eq_true_eq]
      omega
    rw [boundedToken, tokenI64_decimalToken (by omega), Option.filter_some, if_pos hbounds]
  have hdefined := brightnessOf_eq (p := n) (by omega) (by omega) hm hm'
  simp only [requestedBrightness_percentChange, hbounded, bind, Except.bind, hdefined, defined]

/-- On a panel the write is made. -/
theorem brightnessWrites_panel {m : Nat} (hm : m < 2 ^ 31) (hp : 0 ≤ p) (hp' : p ≤ 100) :
    BrightnessWrites m p (Backlight.brightnessOf p m) := by
  lift p to ℕ using hp
  obtain ⟨log, result, s', hdoes, hanswers⟩ := Interleave.exists_does (panel m 0)
    (backlightSetState "panel0" (percentChange (decimalToken p))) 0
  have hlisted : ∀ devices, (⟨.scan, devices⟩ : (o : BacklightOp) × o.Ret) ∈ log → ∃ device,
      findBacklight devices "panel0" = some device ∧ device.writable = true ∧
      device.maximum = m := by
    intro devices hmem
    rw [show devices = panel m 0 .scan from hanswers _ hmem]
    exact ⟨_, findBacklight_panel m 0, rfl, rfl⟩
  obtain ⟨target, ok, hmem⟩ := backlightSetState_writes (List.cons_ne_nil _ _) hdoes hlisted
    (requestedBrightness_decimal (by omega) (by omega) (by omega))
  exact ⟨"panel0", decimalToken p, 0, log, result, s', target, ok, tokenI64_decimalToken (by omega),
    hdoes, panel_scans hanswers, hmem⟩

theorem brightnessWrites_eq (hm : 1 ≤ m) (hm' : m < 2 ^ 31) (h : BrightnessWrites m p v) :
    0 ≤ p ∧ p ≤ 100 ∧ v = Backlight.brightnessOf p m := by
  obtain ⟨name, token, s, log, result, s', target, ok, htoken, hdoes, hscans, hmem⟩ := h
  have hrequested := (backlightSetState_does hm hm' hdoes hscans).2 target v ok hmem
  obtain ⟨p', htoken', hp, hp', hv⟩ := requestedBrightness_percent (by omega) hm' hrequested
  obtain rfl := Option.some.inj (htoken'.symm.trans htoken)
  exact ⟨hp, hp', hv⟩

theorem brightnessReports_eq {q : ℤ} (h : BrightnessReports m v q) :
    brightnessPercent v m = some q := by
  obtain ⟨name, s, log, state, values, s', hdoes, hscans, hreads, hvalues, rfl⟩ := h
  obtain ⟨devices, log', rfl, ⟨-, heq⟩ | ⟨device, data, hfind, rfl, heq⟩⟩ :=
    backlightGetState_does hdoes
  · exact nomatch heq
  have hdevice := hscans devices List.mem_cons_self device hfind
  rw [hdevice, hreads device.name data (by simp), shown, hdevice] at heq
  cases hpercent : brightnessPercent v m with
  | none =>
    rw [hpercent] at heq
    exact nomatch heq
  | some q =>
    rw [hpercent] at heq
    obtain rfl := Except.ok.inj heq
    obtain rfl := Option.some.inj hvalues
    rfl

end Native

theorem Backlight.writes_eq {m p v : ℤ} (h : Backlight.Writes m p v) :
    0 ≤ p ∧ p ≤ 100 ∧ v = Backlight.brightnessOf p m := by
  obtain ⟨identifier, log, result, name, written, hpath, hreads, hmem⟩ := h
  exact Backlight.setState_write hpath hreads hmem

theorem Backlight.reports_eq {m v q : ℤ} (h : Backlight.Reports m v q) :
    q = Backlight.brightnessPercent v m := by
  obtain ⟨identifier, log, state, hpath, hmax, hread, rfl⟩ := h
  exact Backlight.getState_percent hpath hmax hread

/-! ## The two clients -/

/-- Percentages are stable under a maximum: what is written for one is within the range and
    grows with it, and a state that has what was written reports it. -/
structure Stable (m : ℤ) (writes reports : ℤ → ℤ → Prop) : Prop where
  written {p : ℤ} (hp : 0 ≤ p) (hp' : p ≤ 100) : ∃ v, writes p v
  range {p v : ℤ} (h : writes p v) : 0 ≤ v ∧ v ≤ m
  monotone {p p' v v' : ℤ} (h : writes p v) (h' : writes p' v') (hle : p ≤ p') : v ≤ v'
  reported {p v : ℤ} (h : writes p v) : reports v p
  unique {p v q : ℤ} (h : writes p v) (h' : reports v q) : q = p

/-- For every maximum from 100 on, both clients have stable percentages, and no request of the
    native one overflows. -/
theorem percent_stable (m : ℤ) (hm : 100 ≤ m) (hm' : m ≤ 2 ^ 31 - 1) :
    Stable m (Backlight.Writes m) (Backlight.Reports m) ∧
    Stable m (Native.BrightnessWrites m) (Native.BrightnessReports m) ∧
    ∀ name s log result s', Native.Scans name m log →
      (∀ changes, Does (Native.backlightSetState name changes) s log result s' →
        result ≠ .error .overflow) ∧
      (Does (Native.backlightGetState name) s log result s' → result ≠ .error .overflow) := by
  lift m to ℕ using (by omega)
  have hpos : (1 : ℤ) ≤ m := by omega
  refine ⟨⟨?_, ?_, ?_, ?_, ?_⟩, ⟨?_, ?_, ?_, ?_, ?_⟩, ?_⟩
  -- The Python client.
  · exact fun hp hp' => ⟨_, Backlight.writes_panel hp hp' (by omega) (by omega)⟩
  · intro p v h
    obtain ⟨hp, hp', rfl⟩ := Backlight.writes_eq h
    exact ⟨Backlight.brightnessOf_nonneg hp (by omega), Backlight.brightnessOf_le hp' (by omega)⟩
  · intro p p' v v' h h' hle
    obtain ⟨-, -, rfl⟩ := Backlight.writes_eq h
    obtain ⟨-, -, rfl⟩ := Backlight.writes_eq h'
    exact Backlight.brightnessOf_mono (by omega) hle
  · intro p v h
    obtain ⟨hp, hp', rfl⟩ := Backlight.writes_eq h
    have hnonneg := Backlight.brightnessOf_nonneg hp (by omega : (0 : ℤ) ≤ m)
    have hle := Backlight.brightnessOf_le hp' (by omega : (0 : ℤ) ≤ m)
    have hpercent := Backlight.brightnessPercent_brightnessOf (p := p) hm
    generalize Backlight.brightnessOf p m = v at *
    lift v to ℕ using hnonneg
    have hreports := Backlight.reports_panel (m := m) (b := v) (by omega) (by omega) (by omega)
    rwa [hpercent] at hreports
  · intro p v q h h'
    obtain ⟨-, -, rfl⟩ := Backlight.writes_eq h
    exact (Backlight.reports_eq h').trans (Backlight.brightnessPercent_brightnessOf hm)
  -- The native client.
  · exact fun hp hp' => ⟨_, Native.brightnessWrites_panel (by omega) hp hp'⟩
  · intro p v h
    obtain ⟨hp, hp', rfl⟩ := Native.brightnessWrites_eq hpos (by omega) h
    exact ⟨Backlight.brightnessOf_nonneg hp (by omega), Backlight.brightnessOf_le hp' (by omega)⟩
  · intro p p' v v' h h' hle
    obtain ⟨-, -, rfl⟩ := Native.brightnessWrites_eq hpos (by omega) h
    obtain ⟨-, -, rfl⟩ := Native.brightnessWrites_eq hpos (by omega) h'
    exact Backlight.brightnessOf_mono (by omega) hle
  · intro p v h
    obtain ⟨hp, hp', rfl⟩ := Native.brightnessWrites_eq hpos (by omega) h
    have hnonneg := Backlight.brightnessOf_nonneg hp (by omega : (0 : ℤ) ≤ m)
    have hle := Backlight.brightnessOf_le hp' (by omega : (0 : ℤ) ≤ m)
    have hpercent := Native.brightnessPercent_brightnessOf hp hp' hm (by omega)
    generalize Backlight.brightnessOf p m = v at *
    lift v to ℕ using hnonneg
    exact Native.brightnessReports_panel (by omega) (by omega) hpercent
  · intro p v q h h'
    obtain ⟨hp, hp', rfl⟩ := Native.brightnessWrites_eq hpos (by omega) h
    have hpercent := Native.brightnessReports_eq h'
    rw [Native.brightnessPercent_brightnessOf hp hp' hm (by omega)] at hpercent
    exact (Option.some.inj hpercent).symm
  -- No request of the native client overflows.
  · exact fun name s log result s' hscans =>
      ⟨fun changes h => (Native.backlightSetState_does hpos (by omega) h hscans).1,
        fun h => Native.backlightGetState_defined hpos (by omega) h hscans⟩

/-- Half of a maximum of 255: 128 is written, and 50 percent are reported. -/
theorem percent_stable_half : Backlight.Writes 255 50 128 ∧ Native.BrightnessWrites 255 50 128 ∧
    Backlight.Reports 255 128 50 ∧ Native.BrightnessReports 255 128 50 := by
  obtain ⟨hpython, hnative, -⟩ := percent_stable 255 (by decide) (by decide)
  obtain ⟨v, hv⟩ := hpython.written (p := 50) (by decide) (by decide)
  obtain ⟨v', hv'⟩ := hnative.written (p := 50) (by decide) (by decide)
  have heq : v = 128 := (Backlight.writes_eq hv).2.2
  have heq' : v' = 128 := (Native.brightnessWrites_eq (by decide) (by decide) hv').2.2
  subst heq heq'
  exact ⟨hv, hv', hpython.reported hv, hnative.reported hv'⟩

/-- Both clients report the same percentage exactly when it is not half way above an even
    number. -/
theorem percent_agrees (m b : ℤ) (hm : 1 ≤ m) (hm' : m ≤ 2 ^ 31 - 1) (hb : 0 ≤ b) (hbm : b ≤ m) :
    (∀ q q', Native.BrightnessReports m b q → Backlight.Reports m b q' → q = q') ↔
      ¬ (2 * (b * 100 % m) = m ∧ b * 100 / m % 2 = 0) := by
  rw [← Native.brightnessPercent_agrees hb hbm hm (by omega)]
  constructor
  · intro h
    have hnative := Native.brightnessPercent_eq hb hbm hm (by omega)
    lift m to ℕ using (by omega)
    lift b to ℕ using hb
    rw [hnative, h _ _ (Native.brightnessReports_panel (by omega) (by omega) hnative)
      (Backlight.reports_panel (by omega) (by omega) (by omega))]
  · intro h q q' hq hq'
    rw [Native.brightnessReports_eq hq, Option.some.injEq] at h
    exact h.trans (Backlight.reports_eq hq').symm

/-- Both report 8 percent for 20 of 255. -/
theorem percent_agrees_twenty :
    ∃ q q', Native.BrightnessReports 255 20 q ∧ Backlight.Reports 255 20 q' ∧ q = q' := by
  have hnative : Native.BrightnessReports 255 20 8 :=
    Native.brightnessReports_panel (m := 255) (b := 20) (by decide) (by decide) (by decide)
  have hpython := Backlight.reports_panel (m := 255) (b := 20) (by decide) (by decide) (by decide)
  have hagree := percent_agrees 255 20 (by decide) (by decide) (by decide) (by decide)
  exact ⟨_, _, hnative, hpython, hagree.mpr (by decide) _ _ hnative hpython⟩

/-- For 1 of 200 the native client reports 1 percent and the Python one 0. -/
theorem percent_differs : ¬ ∀ m b : ℤ, 1 ≤ m → m ≤ 2 ^ 31 - 1 → 0 ≤ b → b ≤ m →
    ∀ q q', Native.BrightnessReports m b q → Backlight.Reports m b q' → q = q' := by
  intro hclaim
  have hnative : Native.BrightnessReports 200 1 1 :=
    Native.brightnessReports_panel (m := 200) (b := 1) (by decide) (by decide) (by decide)
  have hpython : Backlight.Reports 200 1 0 := by
    have hreports := Backlight.reports_panel (m := 200) (b := 1) (by decide) (by decide) (by decide)
    have hzero : Backlight.brightnessPercent 1 200 = 0 := by decide +kernel
    exact hzero ▸ hreports
  exact absurd (hclaim 200 1 (by decide) (by decide) (by decide) (by decide) 1 0 hnative hpython)
    (by decide)

end MsysHal
